import Webserv.Context
import Mathlib.Data.List.Nodup

/-!
# The virtual hosts

`Server::configure` and `_addSocket` of `Server.cpp`, and `ft::isBound`: the server listens once on each
address of the configuration, and keeps for each socket the blocks that listen on its address.

* `configure`: the table that the loops over the blocks and their hosts build.
* `Bound`: what the table is after some pairs of a block and a host.
* `findServerBlock_configure`: the look-up of a request in the finished table.

## What the two maps are for

`configure` works with two maps.  `bound` is local and tells which socket has an address; `_serverBlocks` is
the server's, and tells which blocks a socket has.  A host whose address is not in the first gets a socket,
and an entry in both; any other adds its block to the blocks of the socket that is there.  In the source
`_addSocket` writes an empty list first and appends the block after, and the definition does the same.

## Why the invariant is about pairs

The loops are nested, over the blocks and over the hosts of each, and what they build depends only on the
sequence of pairs that they see.  `Bound` is the table as a function of that sequence: each address has one
socket, and the blocks of the socket are those of the pairs with the address, in order (`blocksOn`).  One
round of the inner loop appends a pair.

## What a request should find

`virtualHost` states the purpose without tables: of the blocks that listen on the address, the first with
the name, or else the first.  A block that repeats an address is on the list of its socket twice, which no
search for the first can notice (`find?_blocksOn`).

## What is left to the kernel

Which number a socket gets, and whether a call on it fails.  No descriptor is closed in between, so that the
numbers are different; that they are none of those the process has open already is for the caller to see to.
-/

namespace Webserv

/-- What `Configuration` hands to the server: the blocks in the order of the file, and what goes for all of
them. -/
structure Configuration where
  blocks : List ServerBlock
  timeouts : Timeout → Nat
  mimetypes : StringMap

/-- The answers of the kernel to `configure`: the descriptors of the sockets, or the calls that fail. -/
structure ListenSys where
  epollCreate : Bool
  /-- The descriptor of the `n`-th socket.  None is closed in the meantime, so that no number comes
  twice. -/
  socket : Nat → Fd
  socket_injective : Function.Injective socket
  /-- Whether one of the calls on the `n`-th socket fails. -/
  fails : Nat → Bool

/-- What `configure` works on: the sockets that are bound so far, each with its address and its blocks. -/
structure Listening where
  /-- The local variable `bound`. -/
  bound : OrderedMap Fd (List SockAddr) := OrderedMap.empty
  serverBlocks : OrderedMap Fd (List ServerBlock) := OrderedMap.empty
  /-- The sockets that listen, with the address that `bind` gave them: a record that the program
  does not read. -/
  binds : List (Fd × SockAddr) := []

namespace Listening

/-! ## The two loops -/

/-- `ft::isBound`: the first socket of the map with the address.  Addresses are compared with their ports. -/
def isBound (bound : OrderedMap Fd (List SockAddr)) (host : SockAddr) : Option Fd :=
  (bound.entries.find? fun e => e.2.contains host).map Prod.fst

/-- `Server::_addSocket`: a socket that listens, with the block as the first of its list.  Any failing call
throws. -/
def addSocket (sys : ListenSys) (l : Listening) (block : ServerBlock) (host : SockAddr) :
    Except Fault (Fd × Listening) :=
  if sys.fails l.binds.length then throw .runtimeError
  else
    let fd := sys.socket l.binds.length
    return (fd, { l with
      serverBlocks := (l.serverBlocks.insert fd []).pushBack fd block
      binds := l.binds ++ [(fd, host)] })

/-- The body of the inner loop: a socket for a new address, or one more block for an old one. -/
def addHost (sys : ListenSys) (block : ServerBlock) (l : Listening) (host : SockAddr) :
    Except Fault Listening :=
  match isBound l.bound host with
  | none => do
    let (fd, l) ← addSocket sys l block host
    return { l with bound := l.bound.pushBack fd host }
  | some fd => return { l with serverBlocks := l.serverBlocks.pushBack fd block }

/-- The loop over the hosts of a block. -/
def addBlock (sys : ListenSys) (l : Listening) (block : ServerBlock) : Except Fault Listening :=
  block.hosts.foldlM (addHost sys block) l

/-- The loop over the blocks. -/
def addBlocks (sys : ListenSys) (blocks : List ServerBlock) : Except Fault Listening :=
  blocks.foldlM (addBlock sys) {}

end Listening

/-- `Server::configure`: the server, and the sockets it listens on, each with the address that it is bound
to. -/
def configure (sys : ListenSys) (config : Configuration) :
    Except Fault (Server × List (Fd × SockAddr)) :=
  if sys.epollCreate then do
    let l ← Listening.addBlocks sys config.blocks
    return ({ serverBlocks := l.serverBlocks, timeouts := config.timeouts,
              mimetypes := config.mimetypes }, l.binds)
  else throw .runtimeError

/-! ## What a request should find -/

/-- The first block in configuration order that listens on the address and has the name, or else
the first that listens on it. -/
def virtualHost (blocks : List ServerBlock) (host : SockAddr) (name : Bytes) : Option ServerBlock :=
  let listening := blocks.filter fun block => block.hosts.contains host
  (listening.find? fun block => block.names.contains name).or listening.head?

namespace Listening

/-! ## The table as a function of the pairs seen -/

/-- The blocks of the pairs with the address, in order. -/
def blocksOn (host : SockAddr) (seen : List (ServerBlock × SockAddr)) : List ServerBlock :=
  (seen.filter fun p => p.2 = host).map Prod.fst

/-- The table after the pairs of a block and one of its hosts in `seen`. -/
structure Bound (sys : ListenSys) (seen : List (ServerBlock × SockAddr)) (l : Listening) : Prop where
  sockets : l.binds.map Prod.fst = (List.range l.binds.length).map sys.socket
  nodup : (l.binds.map Prod.snd).Nodup
  mem_iff : ∀ host, host ∈ l.binds.map Prod.snd ↔ host ∈ seen.map Prod.snd
  bound : ∀ fd hosts, l.bound.find? fd = some hosts ↔ ∃ host, hosts = [host] ∧ (fd, host) ∈ l.binds
  blocks : ∀ fd host, (fd, host) ∈ l.binds → l.serverBlocks.find? fd = some (blocksOn host seen)
  keys : ∀ fd, (l.serverBlocks.find? fd).isSome → fd ∈ l.binds.map Prod.fst
  succeeds : ∀ n < l.binds.length, sys.fails n = false

/-- Before the loops there is nothing in the table. -/
theorem bound_nil (sys : ListenSys) : Bound sys [] {} where
  sockets := rfl
  nodup := List.nodup_nil
  mem_iff := fun _ => Iff.rfl
  bound := fun fd hosts => by
    constructor
    · intro hfind
      cases hfind
    · rintro ⟨_, _, hmem⟩
      cases hmem
  blocks := fun _ _ hmem => by cases hmem
  keys := fun _ hfind => by cases hfind
  succeeds := fun n hn => absurd hn (Nat.not_lt_zero n)

section Bound

variable {sys : ListenSys} {seen : List (ServerBlock × SockAddr)} {l : Listening}

/-- The new socket is none of those that listen already. -/
theorem Bound.socket_notMem (h : Bound sys seen l) :
    sys.socket l.binds.length ∉ l.binds.map Prod.fst := by
  rw [h.sockets, List.mem_map]
  rintro ⟨n, hn, heq⟩
  exact absurd (sys.socket_injective heq) (Nat.ne_of_lt (List.mem_range.mp hn))

/-- No two sockets listen on one address. -/
theorem Bound.fd_eq (h : Bound sys seen l) {fd fd' : Fd} {host : SockAddr}
    (hmem : (fd, host) ∈ l.binds) (hmem' : (fd', host) ∈ l.binds) : fd = fd' :=
  congrArg Prod.fst (List.inj_on_of_nodup_map h.nodup hmem hmem' rfl)

/-- No socket listens on two addresses. -/
theorem Bound.host_eq (h : Bound sys seen l) {fd : Fd} {host host' : SockAddr}
    (hmem : (fd, host) ∈ l.binds) (hmem' : (fd, host') ∈ l.binds) : host = host' := by
  have hnodup : (l.binds.map Prod.fst).Nodup := by
    rw [h.sockets]
    exact List.Nodup.map sys.socket_injective List.nodup_range
  exact congrArg Prod.snd (List.inj_on_of_nodup_map hnodup hmem hmem' rfl)

/-- `isBound` finds the socket that listens on the address. -/
theorem Bound.isBound_eq_some (h : Bound sys seen l) {fd : Fd} {host : SockAddr}
    (hfind : isBound l.bound host = some fd) : (fd, host) ∈ l.binds := by
  obtain ⟨e, he, rfl⟩ := Option.map_eq_some_iff.mp hfind
  have hentry := OrderedMap.find?_eq_some_iff.mpr (List.mem_of_find?_eq_some he)
  obtain ⟨host', hhosts, hmem⟩ := (h.bound _ _).mp hentry
  have hcontains := List.find?_some he
  rw [hhosts, List.contains_iff_mem, List.mem_singleton] at hcontains
  rwa [hcontains]

theorem Bound.isBound_eq_none (h : Bound sys seen l) {host : SockAddr}
    (hfind : isBound l.bound host = none) : host ∉ l.binds.map Prod.snd := by
  intro hmem
  obtain ⟨⟨fd, host'⟩, hbind, rfl⟩ := List.mem_map.mp hmem
  have hentry := OrderedMap.find?_eq_some_iff.mp ((h.bound fd [host']).mpr ⟨host', rfl, hbind⟩)
  have hall := List.find?_eq_none.mp (Option.map_eq_none_iff.mp hfind) _ hentry
  exact hall (List.contains_iff_mem.mpr (List.mem_singleton_self _))

end Bound

/-- One more pair adds its block where it has the address. -/
theorem blocksOn_append (host : SockAddr) (seen : List (ServerBlock × SockAddr))
    (block : ServerBlock) (host' : SockAddr) : blocksOn host (seen ++ [(block, host')]) =
      blocksOn host seen ++ if host' = host then [block] else [] := by
  unfold blocksOn
  rw [List.filter_append, List.map_append]
  by_cases heq : host' = host
  · simp [heq]
  · simp [heq]

/-- No pair has an address that nothing listens on. -/
theorem blocksOn_eq_nil {host : SockAddr} {seen : List (ServerBlock × SockAddr)}
    (h : host ∉ seen.map Prod.snd) : blocksOn host seen = [] := by
  unfold blocksOn
  rw [List.filter_eq_nil_iff.mpr, List.map_nil]
  intro p hp heq
  exact h (List.mem_map.mpr ⟨p, hp, of_decide_eq_true heq⟩)

section Steps

variable {sys : ListenSys} {seen : List (ServerBlock × SockAddr)} {l l' : Listening}
  {block : ServerBlock} {host : SockAddr}

/-- A host that nothing listens on gets a socket of its own. -/
theorem Bound.addSocket (h : Bound sys seen l) (hnew : host ∉ l.binds.map Prod.snd)
    (hsucceeds : sys.fails l.binds.length = false) :
    Bound sys (seen ++ [(block, host)]) {
      bound := l.bound.pushBack (sys.socket l.binds.length) host
      serverBlocks := (l.serverBlocks.insert (sys.socket l.binds.length) []).pushBack
        (sys.socket l.binds.length) block
      binds := l.binds ++ [(sys.socket l.binds.length, host)] } := by
  have hfd := h.socket_notMem
  set fd := sys.socket l.binds.length with hfd_eq
  have hunbound : l.bound.find? fd = none := by
    rw [Option.eq_none_iff_forall_ne_some]
    intro hosts hfind
    obtain ⟨host', -, hmem⟩ := (h.bound fd hosts).mp hfind
    exact hfd (List.mem_map_of_mem hmem)
  have hne : ∀ {fd' host'}, (fd', host') ∈ l.binds → fd' ≠ fd := by
    rintro fd' host' hmem rfl
    exact hfd (List.mem_map_of_mem hmem)
  refine ⟨?_, ?_, ?_, ?_, ?_, ?_, ?_⟩ <;> dsimp only
  · rw [List.map_append, h.sockets, List.length_append, List.length_singleton, List.range_succ,
      List.map_append, hfd_eq, List.map_singleton, List.map_singleton]
  · rw [List.map_append, List.nodup_append]
    refine ⟨h.nodup, List.nodup_singleton _, ?_⟩
    intro a ha b hb heq
    rw [List.map_singleton, List.mem_singleton] at hb
    rw [heq, hb] at ha
    exact hnew ha
  · intro host'
    rw [List.map_append, List.map_append, List.mem_append, List.mem_append, h.mem_iff host']
    rfl
  · intro fd' hosts
    by_cases heq : fd' = fd
    · subst heq
      rw [OrderedMap.find?_pushBack_self, hunbound]
      constructor
      · intro hfind
        exact ⟨host, (Option.some.inj hfind).symm, List.mem_append_right _ (List.mem_singleton_self _)⟩
      · rintro ⟨host', rfl, hmem⟩
        rcases List.mem_append.mp hmem with hmem | hmem
        · exact absurd rfl (hne hmem)
        · cases List.mem_singleton.mp hmem
          rfl
    · rw [OrderedMap.find?_pushBack_of_ne _ heq, h.bound]
      have hlast : ∀ host', (fd', host') ∉ [(fd, host)] := fun host' hmem =>
        heq (congrArg Prod.fst (List.mem_singleton.mp hmem))
      simp only [List.mem_append, hlast, or_false]
  · intro fd' host' hmem
    rcases List.mem_append.mp hmem with hmem | hmem
    · have hother : host ≠ host' := by
        rintro rfl
        exact hnew (List.mem_map_of_mem hmem)
      rw [OrderedMap.find?_pushBack_of_ne _ (hne hmem), OrderedMap.find?_insert_of_ne _ (hne hmem),
        h.blocks _ _ hmem, blocksOn_append, if_neg hother, List.append_nil]
    · cases List.mem_singleton.mp hmem
      rw [OrderedMap.find?_pushBack_self, OrderedMap.find?_insert_self, blocksOn_append, if_pos rfl,
        blocksOn_eq_nil (fun hmem => hnew ((h.mem_iff _).mpr hmem))]
      rfl
  · intro fd' hfind
    rw [List.map_append, List.mem_append]
    by_cases heq : fd' = fd
    · exact Or.inr (List.mem_singleton.mpr heq)
    · rw [OrderedMap.find?_pushBack_of_ne _ heq, OrderedMap.find?_insert_of_ne _ heq] at hfind
      exact Or.inl (h.keys fd' hfind)
  · intro n hn
    rw [List.length_append, List.length_singleton] at hn
    rcases Nat.lt_succ_iff_lt_or_eq.mp hn with hlt | rfl
    · exact h.succeeds n hlt
    · exact hsucceeds

/-- A host that a socket listens on adds the block to the ones of that socket. -/
theorem Bound.pushBlock (h : Bound sys seen l) {fd : Fd} (hmem : (fd, host) ∈ l.binds) :
    Bound sys (seen ++ [(block, host)]) { l with
      serverBlocks := l.serverBlocks.pushBack fd block } := by
  refine ⟨h.sockets, h.nodup, ?_, h.bound, ?_, ?_, h.succeeds⟩ <;> dsimp only
  · intro host'
    have hseen := (h.mem_iff host).mp (List.mem_map_of_mem hmem)
    rw [List.map_append, List.mem_append, h.mem_iff host']
    constructor
    · exact Or.inl
    · rintro (hin | hin)
      · exact hin
      · rwa [List.mem_singleton.mp hin]
  · intro fd' host' hmem'
    by_cases heq : fd' = fd
    · subst heq
      cases h.host_eq hmem hmem'
      rw [OrderedMap.find?_pushBack_self, h.blocks _ _ hmem, blocksOn_append, if_pos rfl]
      rfl
    · have hother : host ≠ host' := by
        rintro rfl
        exact heq (h.fd_eq hmem' hmem)
      rw [OrderedMap.find?_pushBack_of_ne _ heq, h.blocks _ _ hmem', blocksOn_append,
        if_neg hother, List.append_nil]
  · intro fd' hfind
    by_cases heq : fd' = fd
    · rw [heq]
      exact List.mem_map_of_mem hmem
    · rw [OrderedMap.find?_pushBack_of_ne _ heq] at hfind
      exact h.keys fd' hfind

/-- One round of the inner loop.  The address has a socket already, and the block is added to it, or a new
socket listens on it. -/
theorem Bound.addHost (h : Bound sys seen l) (hadd : l.addHost sys block host = .ok l') :
    Bound sys (seen ++ [(block, host)]) l' := by
  unfold Listening.addHost at hadd
  cases hbound : isBound l.bound host with
  | none =>
    have hnew := h.isBound_eq_none hbound
    rw [hbound] at hadd
    dsimp only at hadd
    cases hfails : sys.fails l.binds.length with
    | true =>
      rw [Listening.addSocket, if_pos hfails] at hadd
      cases hadd
    | false =>
      rw [Listening.addSocket, if_neg (Bool.eq_false_iff.mp hfails)] at hadd
      cases hadd
      exact h.addSocket hnew hfails
  | some fd =>
    rw [hbound] at hadd
    cases hadd
    exact h.pushBlock (h.isBound_eq_some hbound)

/-- The inner loop, by induction on the addresses of one block. -/
theorem Bound.addHosts {hosts : List SockAddr} (h : Bound sys seen l)
    (hadd : hosts.foldlM (Listening.addHost sys block) l = .ok l') :
    Bound sys (seen ++ hosts.map fun host => (block, host)) l' := by
  induction hosts generalizing seen l with
  | nil =>
    cases hadd
    rwa [List.map_nil, List.append_nil]
  | cons host hosts ih =>
    rw [List.foldlM_cons] at hadd
    cases hfirst : l.addHost sys block host with
    | error fault =>
      rw [hfirst] at hadd
      cases hadd
    | ok l₁ =>
      rw [hfirst] at hadd
      rw [List.map_cons, ← List.singleton_append, ← List.append_assoc]
      exact ih (h.addHost hfirst) hadd

end Steps

/-- The pairs of a block and one of its hosts, in the order of the two loops. -/
def pairs (blocks : List ServerBlock) : List (ServerBlock × SockAddr) :=
  blocks.flatMap fun block => block.hosts.map fun host => (block, host)

/-- The outer loop, by induction on the blocks in the order of the file, which is the order that the lookup
goes by. -/
theorem Bound.addBlocks {sys : ListenSys} {blocks : List ServerBlock}
    {seen : List (ServerBlock × SockAddr)} {l l' : Listening} (h : Bound sys seen l)
    (hadd : blocks.foldlM (Listening.addBlock sys) l = .ok l') :
    Bound sys (seen ++ pairs blocks) l' := by
  induction blocks generalizing seen l with
  | nil =>
    cases hadd
    rwa [pairs, List.flatMap_nil, List.append_nil]
  | cons block blocks ih =>
    rw [List.foldlM_cons] at hadd
    cases hfirst : l.addBlock sys block with
    | error fault =>
      rw [hfirst] at hadd
      cases hadd
    | ok l₁ =>
      rw [hfirst] at hadd
      rw [pairs, List.flatMap_cons, ← List.append_assoc]
      exact ih (h.addHosts hfirst) hadd

/-! ## The look-up in the finished table -/

/-- The addresses of the pairs are those of the configuration. -/
theorem mem_pairs {blocks : List ServerBlock} {host : SockAddr} :
    host ∈ (pairs blocks).map Prod.snd ↔ ∃ block ∈ blocks, host ∈ block.hosts := by
  simp [pairs]

theorem head?_eq_find? {α : Type*} (l : List α) : l.head? = l.find? fun _ => true := by
  cases l <;> rfl

/-- A block that repeats an address is on its list as often; a search sees the first copy only. -/
theorem find?_blocksOn (p : ServerBlock → Bool) (blocks : List ServerBlock) (host : SockAddr) :
    (blocksOn host (pairs blocks)).find? p =
      (blocks.filter fun block => block.hosts.contains host).find? p := by
  induction blocks with
  | nil => rfl
  | cons block blocks ih =>
    have hsplit : blocksOn host (pairs (block :: blocks)) =
        List.replicate (block.hosts.count host) block ++ blocksOn host (pairs blocks) := by
      unfold pairs
      rw [List.flatMap_cons, blocksOn, List.filter_append, List.map_append]
      congr 1
      rw [List.filter_map, List.map_map, List.count_eq_length_filter, List.eq_replicate_iff]
      refine ⟨?_, ?_⟩
      · rw [List.length_map]
        exact congrArg List.length (List.filter_congr fun host' _ => rfl)
      · intro b hb
        obtain ⟨host', -, rfl⟩ := List.mem_map.mp hb
        rfl
    rw [hsplit, List.find?_append, ih, List.filter_cons]
    by_cases hmem : host ∈ block.hosts
    · rw [if_pos (List.contains_iff_mem.mpr hmem)]
      obtain ⟨n, hn⟩ := Nat.exists_eq_succ_of_ne_zero (List.count_pos_iff.mpr hmem).ne'
      rw [hn, List.find?_replicate_of_length_pos (Nat.succ_pos n), List.find?_cons]
      cases p block <;> rfl
    · rw [if_neg (mt List.contains_iff_mem.mp hmem), List.count_eq_zero.mpr hmem,
        List.replicate_zero, List.find?_nil, Option.none_or]

end Listening

open Listening in
/-- **The virtual-host table.**  After `configure`, exactly one socket listens on each address of the
configuration and on no other, and what a request finds on the socket of an address is the first
block in configuration order that listens there and has the name of its host, or else the first
that listens there. -/
theorem findServerBlock_configure {sys : ListenSys} {config : Configuration} {server : Server}
    {binds : List (Fd × SockAddr)} (h : configure sys config = .ok (server, binds)) :
    (∀ host, (∃ block ∈ config.blocks, host ∈ block.hosts) ↔ ∃! fd, (fd, host) ∈ binds) ∧
      (binds.map Prod.fst).Nodup ∧ (binds.map Prod.snd).Nodup ∧
      (∀ fd, (server.serverBlocks.find? fd).isSome ↔ fd ∈ binds.map Prod.fst) ∧
      ∀ fd host, (fd, host) ∈ binds → ∀ name,
        server.findServerBlock fd name = virtualHost config.blocks host name := by
  unfold configure at h
  split_ifs at h with hepoll
  cases hadd : addBlocks sys config.blocks with
  | error fault =>
    rw [hadd] at h
    cases h
  | ok l =>
    rw [hadd] at h
    cases h
    have hbound : Bound sys (pairs config.blocks) l := (bound_nil sys).addBlocks hadd
    refine ⟨?_, ?_, hbound.nodup, ?_, ?_⟩
    · intro host
      rw [← mem_pairs, ← hbound.mem_iff, List.mem_map]
      constructor
      · rintro ⟨⟨fd, host'⟩, hmem, rfl⟩
        exact ⟨fd, hmem, fun fd' hmem' => hbound.fd_eq hmem' hmem⟩
      · rintro ⟨fd, hmem, -⟩
        exact ⟨(fd, host), hmem, rfl⟩
    · rw [hbound.sockets]
      exact List.Nodup.map sys.socket_injective List.nodup_range
    · intro fd
      constructor
      · exact hbound.keys fd
      · intro hmem
        obtain ⟨⟨fd', host⟩, hbind, rfl⟩ := List.mem_map.mp hmem
        rw [show l.serverBlocks.find? fd' = _ from hbound.blocks _ _ hbind]
        rfl
    · intro fd host hmem name
      rw [Server.findServerBlock, show l.serverBlocks.find? fd = _ from hbound.blocks _ _ hmem,
        virtualHost]
      dsimp only
      rw [find?_blocksOn, head?_eq_find?, head?_eq_find?, find?_blocksOn]
      cases (config.blocks.filter fun block => block.hosts.contains host).find?
        fun block => block.names.contains name <;> rfl

/-- Every call succeeds, and the descriptors are 3, 4, 5 and so on. -/
def ListenSys.quiet : ListenSys where
  epollCreate := true
  socket := fun n => n + 3
  socket_injective := fun m n (h : (m : Int) + 3 = n + 3) => by omega
  fails := fun _ => false

/-- Two blocks that listen on one address, the first of them twice. -/
def sharedConfiguration : Configuration where
  blocks := [
    { hosts := [⟨0, 80⟩, ⟨0, 80⟩], names := [bytes "a"] },
    { hosts := [⟨0, 80⟩, ⟨0, 81⟩], names := [bytes "b"] }]
  timeouts := fun _ => 0
  mimetypes := OrderedMap.empty

/-- The two blocks share a socket, and the name decides between them. -/
theorem findServerBlock_configure_shared : ∃ server,
    configure .quiet sharedConfiguration = .ok (server, [(3, ⟨0, 80⟩), (4, ⟨0, 81⟩)]) ∧
      ∀ name, server.findServerBlock 3 name = virtualHost sharedConfiguration.blocks ⟨0, 80⟩ name := by
  have hok : configure .quiet sharedConfiguration = .ok (_, [(3, ⟨0, 80⟩), (4, ⟨0, 81⟩)]) := rfl
  exact ⟨_, hok, (findServerBlock_configure hok).2.2.2.2 3 ⟨0, 80⟩ (List.mem_cons_self ..)⟩

end Webserv
