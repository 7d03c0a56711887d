import Webserv.VirtualHosts
import Webserv.Calls

/-!
# The port in a Host

`_resolveARequest` hands the value of `Host` to `findServerBlock` as it is, and a name is compared with the
whole of it.  With a port behind it no name is ever met, and the first block of the socket answers.

* `serverBlock_resolveARequest`: the block that a request is resolved to.
* `NamesDefault`: a name that is not taken, or taken by the first block of the address.
* `resolved_hostPort_iff`: when the port makes no difference.

## Why the first block is the condition

The names of the blocks are taken to be without a colon, so a value with a port is none of them.  The
request then goes to the first block that listens on the address of the socket, as if the name were unknown.
Without the port it goes to the first block with this name.  The two are the same block exactly when no
block has the name, or the first block has it (`find?_or_head?_eq_head?_iff`, a fact about lists).

## Why the configuration is in the statement

The blocks of a socket come from the configuration through `configure`, which puts the block of every
`listen` behind the socket of its address.  So the condition is stated with the blocks of the file and the
address of the socket, and not with what the server has made of them.  It can be checked by reading the
file.
-/

namespace Webserv

/-! ## The block of a request -/

namespace Client

/-- The client of a request with this `Host`. -/
def withHost (c : Client) (value : Bytes) : Client :=
  { c with context := { c.context with headers := c.context.headers.insert headerHost value } }

/-- A request is resolved to the block that is found for its `Host`, and stays so. -/
theorem serverBlock_resolveARequest (c : Client) (sys : Sys) :
    (c.resolveARequest sys).2.context.serverBlock =
      (c.context.server.findServerBlock c.connectSocket
        ((c.context.headers.find? headerHost).getD [])).or c.context.serverBlock := by
  unfold resolveARequest
  dsimp only
  cases hblock : c.context.server.findServerBlock c.connectSocket
    ((c.context.headers.find? headerHost).getD []) with
  | none => rfl
  | some block =>
    dsimp only
    cases hrule : block.findLocationBlock (Path.ofString c.context.target) with
    | none => rfl
    | some loc =>
      dsimp only
      split_ifs
      · rfl
      · rfl
      · unfold startRequest
        dsimp only
        cases hkind : requestKind c.context.method with
        | none => rfl
        | some kind =>
          dsimp only
          cases hcreate : createRequest kind
              { c.context with serverBlock := some block, ruleBlock := some loc } with
          | error fault => rfl
          | ok h =>
            obtain ⟨h₀, hcontext, f, hf⟩ := (Handler.started_processing sys hcreate).fields
            show (h.processing sys).context.serverBlock = some block
            rw [hf, show (h₀.withProcessing f).context.serverBlock = h₀.context.serverBlock from rfl,
              hcontext]
      · rfl

end Client

/-! ## The port -/

/-- Where a list is searched for an element, or else its first one is taken, that is the first one
anyway. -/
theorem find?_or_head?_eq_head?_iff {α : Type*} {p : α → Bool} {l : List α} :
    (l.find? p).or l.head? = l.head? ↔
      (∀ a ∈ l, p a = false) ∨ ∃ a, l.head? = some a ∧ p a = true := by
  cases l with
  | nil => simp
  | cons a l =>
    cases hfind : (a :: l).find? p with
    | none =>
      have hnone : ∀ b ∈ a :: l, p b = false := fun b hb =>
        Bool.eq_false_iff.mpr (List.find?_eq_none.mp hfind b hb)
      exact iff_of_true rfl (Or.inl hnone)
    | some b =>
      have hb : p b = true := List.find?_some hfind
      constructor
      · intro heq
        obtain rfl : b = a := Option.some.inj heq
        exact Or.inr ⟨b, rfl, hb⟩
      · rintro (hnone | ⟨a', hhead, ha'⟩)
        · rw [hnone b (List.mem_of_find?_eq_some hfind)] at hb
          cases hb
        · obtain rfl : a = a' := Option.some.inj hhead
          rw [List.find?_cons_of_pos ha'] at hfind
          rw [← hfind]
          rfl

/-- No block that listens on the address has the name, or the first one has. -/
def NamesDefault (blocks : List ServerBlock) (host : SockAddr) (name : Bytes) : Prop :=
  (∀ block ∈ blocks, host ∈ block.hosts → name ∉ block.names) ∨
    ∃ block, (blocks.filter fun block => block.hosts.contains host).head? = some block ∧
      name ∈ block.names

/-- **The port in a Host.**  Two requests that differ in the port behind the name of their `Host` only are
resolved to the same server block, if and only if no block of the socket has the name, or the first one
has. -/
theorem resolved_hostPort_iff {sys : ListenSys} {config : Configuration} {server : Server}
    {binds : List (Fd × SockAddr)} (hconfigure : configure sys config = .ok (server, binds))
    (hnames : ∀ block ∈ config.blocks, ∀ name ∈ block.names, colon ∉ name) {fd : Fd} {host : SockAddr}
    (hsocket : (fd, host) ∈ binds) (n p : Bytes) {c : Client}
    (hserver : c.context.server = server) (hconnect : c.connectSocket = fd) (answers : Sys) :
    ((c.withHost (n ++ colon :: p)).resolveARequest answers).2.context.serverBlock =
        ((c.withHost n).resolveARequest answers).2.context.serverBlock ↔
      NamesDefault config.blocks host n := by
  have hfound := (findServerBlock_configure hconfigure).2.2.2.2 fd host hsocket
  -- what the two requests are resolved to
  have hresolved : ∀ value, ((c.withHost value).resolveARequest answers).2.context.serverBlock =
      (virtualHost config.blocks host value).or c.context.serverBlock := fun value => by
    rw [Client.serverBlock_resolveARequest, ← hfound value]
    show (c.context.server.findServerBlock c.connectSocket
      (((c.context.headers.insert headerHost value).find? headerHost).getD [])).or _ = _
    rw [OrderedMap.find?_insert_self, hserver, hconnect]
    rfl
  set listening := config.blocks.filter fun block => block.hosts.contains host with hlistening
  have hport : virtualHost config.blocks host (n ++ colon :: p) = listening.head? := by
    have hnone : listening.find? (fun block => block.names.contains (n ++ colon :: p)) = none := by
      refine List.find?_eq_none.mpr fun block hblock hcontains => ?_
      exact hnames block (List.mem_of_mem_filter hblock) _ (List.contains_iff_mem.mp hcontains)
        (List.mem_append_right n List.mem_cons_self)
    show (listening.find? _).or listening.head? = listening.head?
    rw [hnone, Option.none_or]
  have hname : virtualHost config.blocks host n =
      (listening.find? fun block => block.names.contains n).or listening.head? := rfl
  have hequal : virtualHost config.blocks host n = listening.head? ↔ NamesDefault config.blocks host n := by
    rw [hname, find?_or_head?_eq_head?_iff, NamesDefault, ← hlistening]
    refine or_congr ⟨fun h block hblock hhost hmem => ?_, fun h block hblock => ?_⟩
      (exists_congr fun block => and_congr_right fun _ => List.contains_iff_mem)
    · have hfalse := h block (List.mem_filter.mpr ⟨hblock, List.contains_iff_mem.mpr hhost⟩)
      rw [List.contains_iff_mem.mpr hmem] at hfalse
      cases hfalse
    · obtain ⟨hblock, hhost⟩ := List.mem_filter.mp hblock
      exact Bool.eq_false_iff.mpr fun hcontains =>
        h block hblock (List.contains_iff_mem.mp hhost) (List.contains_iff_mem.mp hcontains)
  rw [hresolved, hresolved, hport, ← hequal, hname]
  cases hhead : listening.head? with
  | none =>
    have hnil : listening = [] := List.head?_eq_none_iff.mp hhead
    rw [hnil]
    exact iff_of_true rfl rfl
  | some first =>
    cases listening.find? fun block => block.names.contains n with
    | none => exact iff_of_true rfl rfl
    | some block => exact eq_comm

/-- Two hosts on one port. -/
def portConfiguration : Configuration where
  blocks := [
    { hosts := [⟨0, 8080⟩], names := [bytes "kchillon.com"] },
    { hosts := [⟨0, 8080⟩], names := [bytes "superplombier.fr"] }]
  timeouts := fun _ => 0
  mimetypes := OrderedMap.empty

/-- A client of the server of the two hosts. -/
def portClient (server : Server) : Client := .init server { table := fun _ => none } 3 4 0

theorem resolved_hostPort_iff_first : ∃ server,
    configure .quiet portConfiguration = .ok (server, [(3, ⟨0, 8080⟩)]) ∧
      ((((portClient server).withHost (bytes "kchillon.com:8080")).resolveARequest
          (.quiet 0)).2.context.serverBlock =
        (((portClient server).withHost (bytes "kchillon.com")).resolveARequest
          (.quiet 0)).2.context.serverBlock ↔
        NamesDefault portConfiguration.blocks ⟨0, 8080⟩ (bytes "kchillon.com")) := by
  have hok : configure .quiet portConfiguration = .ok (_, [(3, ⟨0, 8080⟩)]) := rfl
  exact ⟨_, hok, resolved_hostPort_iff hok (by decide +kernel) List.mem_cons_self (bytes "kchillon.com")
    (bytes "8080") (c := portClient _) rfl rfl (.quiet 0)⟩

/-- The second host is not found with the port. -/
theorem not_resolved_hostPort : ∃ server,
    configure .quiet portConfiguration = .ok (server, [(3, ⟨0, 8080⟩)]) ∧
      ((((portClient server).withHost (bytes "superplombier.fr:8080")).resolveARequest
          (.quiet 0)).2.context.serverBlock).map ServerBlock.names = some [bytes "kchillon.com"] ∧
      ((((portClient server).withHost (bytes "superplombier.fr")).resolveARequest
          (.quiet 0)).2.context.serverBlock).map ServerBlock.names = some [bytes "superplombier.fr"] := by
  have hok : configure .quiet portConfiguration = .ok (_, [(3, ⟨0, 8080⟩)]) := rfl
  exact ⟨_, hok, by decide +kernel, by decide +kernel⟩

end Webserv
