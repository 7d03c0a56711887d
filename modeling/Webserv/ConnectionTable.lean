import Webserv.Calls
import Webserv.EventLoop
import Webserv.ResponseStream
import Mathlib.Data.List.Nodup

/-!
# The connection table

The list of clients and the map from descriptors to clients are updated separately.  They agree as long as
every accepted socket can be added to epoll: a client whose `init` fails stays in the list, with a socket
that is closed.

* `Consistent`: the two structures agree.
* `Sound`: what the operations keep; it says in addition what the kernel knows.
* `Sound.addConnection`, `Sound.call`, `Sound.removeConnection`, `Sound.checkClientsTimeout`: one lemma for
  each operation.
* `consistent_run`: the table after any sequence of operations.

## Why there are two invariants

`Consistent` is the statement, in the words of the two structures.  It is not inductive.  An operation may
overwrite an entry of the map when the kernel hands out a descriptor that is still there, and that it does
not is a fact about the kernel: the descriptors of the map are open.  `Sound` adds it, and what else an
operation needs to go on: that the numbers of the nodes are different, that epoll watches nothing that has
gone, that the two sockets of a client are two.

## How the calls are handled

A call into a client is a long way through the program, and the table cares about two things of it: the
sockets of the client, and whether it threw.  `Client.Orderly` is the part of a client's own invariant that
concerns its sockets, and `Admissible` is what a call may do to them: nothing, or it opens a CGI when there
was none, with a pair of sockets that were not open.  Each entry point has a lemma that it is admissible,
and the table's lemmas know no more of a client than that.

## What goes wrong

A client whose socket cannot be added to epoll is in the list without an entry in the map, and its
descriptor is closed while the client still has it.  The condition of the theorem excludes exactly these
connections (`FailsInit`), and `not_consistent_run` is one.
-/

namespace Webserv
namespace EventLoop

/-! ## The invariant -/

/-- Every client is mapped under its socket, every entry of the map leads to a client that owns the
descriptor, and no two clients have one socket. -/
structure Consistent (s : EventLoop) : Prop where
  own : ∀ n ∈ s.clients, s.fdClientMap.find? n.client.fd = some n.id
  owned : ∀ fd id, s.fdClientMap.find? fd = some id →
    ∃ n ∈ s.clients, n.id = id ∧ (fd = n.client.fd ∨ fd = n.client.context.cgiSocket)
  distinct : s.clients.Pairwise fun m n => m.client.fd ≠ n.client.fd

/-- What the operations keep.  The descriptors of the map are open, and epoll watches no others but
the listening sockets. -/
structure Sound (s : EventLoop) : Prop where
  listening : ∀ fd, s.isListening fd = true → fd ∈ s.opened
  nodup : (s.clients.map ClientNode.id).Nodup
  lt_nextId : ∀ n ∈ s.clients, n.id < s.nextId
  orderly : ∀ n ∈ s.clients, n.client.Orderly
  own : ∀ n ∈ s.clients, s.fdClientMap.find? n.client.fd = some n.id
  cgi : ∀ n ∈ s.clients, n.client.context.cgiSocket ≠ -1 →
    s.fdClientMap.find? n.client.context.cgiSocket = some n.id
  ne_cgi : ∀ n ∈ s.clients, n.client.fd ≠ n.client.context.cgiSocket
  owned : ∀ fd id, s.fdClientMap.find? fd = some id →
    ∃ n ∈ s.clients, n.id = id ∧ (fd = n.client.fd ∨ fd = n.client.context.cgiSocket)
  mapped : ∀ fd id, s.fdClientMap.find? fd = some id →
    fd ∈ s.opened ∧ fd ≠ -1 ∧ s.isListening fd = false
  interest : ∀ fd ∈ s.interest, s.isListening fd = true ∨ (s.fdClientMap.find? fd).isSome = true

/-- The record, the batch and the file system play no part in it. -/
theorem Sound.congr {s s' : EventLoop} (h : Sound s) (hserver : s'.server = s.server)
    (hclients : s'.clients = s.clients) (hmap : s'.fdClientMap = s.fdClientMap)
    (hopened : s'.opened = s.opened) (hinterest : s'.interest = s.interest)
    (hid : s'.nextId = s.nextId) : Sound s' := by
  have hlistening : ∀ fd, s'.isListening fd = s.isListening fd := fun fd => by
    rw [isListening, isListening, hserver]
  constructor
  · simpa only [hlistening, hopened] using h.listening
  · rw [hclients]
    exact h.nodup
  · rw [hclients, hid]
    exact h.lt_nextId
  · rw [hclients]
    exact h.orderly
  · rw [hclients, hmap]
    exact h.own
  · rw [hclients, hmap]
    exact h.cgi
  · rw [hclients]
    exact h.ne_cgi
  · rw [hclients, hmap]
    exact h.owned
  · simpa only [hlistening, hopened, hmap] using h.mapped
  · simpa only [hlistening, hinterest, hmap] using h.interest

section Sound

variable {s : EventLoop}

/-- Nodes with one number are one node.  The number stands for the address of a list node, which no two
nodes share. -/
theorem Sound.eq_of_id (h : Sound s) {m n : ClientNode} (hm : m ∈ s.clients) (hn : n ∈ s.clients)
    (heq : m.id = n.id) : m = n :=
  List.inj_on_of_nodup_map h.nodup hm hn heq

/-- Clients on one socket are one client, since the map has one entry for it. -/
theorem Sound.eq_of_fd (h : Sound s) {m n : ClientNode} (hm : m ∈ s.clients) (hn : n ∈ s.clients)
    (heq : m.client.fd = n.client.fd) : m = n := by
  have hown := h.own m hm
  rw [heq, h.own n hn] at hown
  exact (h.eq_of_id hn hm (Option.some.inj hown)).symm

/-- What the operations keep is enough for the table to agree with itself. -/
theorem Sound.consistent (h : Sound s) : Consistent s where
  own := h.own
  owned := h.owned
  distinct := by
    have hids : s.clients.Pairwise fun m n => m.id ≠ n.id := List.pairwise_map.mp h.nodup
    refine hids.imp_of_mem fun hm hn hne heq => hne ?_
    rw [h.eq_of_fd hm hn heq]

/-- What an iterator leads to is in the list. -/
theorem client?_eq_some {id : Nat} {c : Client} (h : s.client? id = some c) :
    ⟨id, c⟩ ∈ s.clients := by
  obtain ⟨n, hfind, rfl⟩ := Option.map_eq_some_iff.mp h
  have hid : n.id = id := by simpa using List.find?_some hfind
  have hmem := List.mem_of_find?_eq_some hfind
  rwa [← hid]

/-- An iterator of the map leads to a client, and to the one that has the descriptor.  In the source this is
what makes dereferencing it defined. -/
theorem Sound.client? (h : Sound s) {fd : Fd} {id : Nat} (hfind : s.fdClientMap.find? fd = some id) :
    ∃ c, s.client? id = some c ∧ (fd = c.fd ∨ fd = c.context.cgiSocket) := by
  obtain ⟨n, hn, hid, howns⟩ := h.owned fd id hfind
  cases hclient : s.client? id with
  | none =>
    have hall := List.find?_eq_none.mp (Option.map_eq_none_iff.mp hclient) n hn
    exact absurd (decide_eq_true hid) hall
  | some c =>
    have heq := h.eq_of_id hn (client?_eq_some hclient) hid
    refine ⟨c, rfl, ?_⟩
    rwa [show c = n.client by rw [heq]]

/-- A descriptor that the kernel hands out is not open, and is a number. -/
theorem fresh_eq_some {answer : Option Nat} {fd : Fd} (h : s.fresh answer = some fd) :
    fd ∉ s.opened ∧ fd ≠ -1 := by
  unfold fresh at h
  cases answer with
  | none => cases h
  | some n =>
    dsimp only at h
    split_ifs at h with hopen
    cases h
    exact ⟨hopen, fun heq : (n : Int) = -1 => by omega⟩

/-- A descriptor that is not open is not in use. -/
theorem Sound.unused (h : Sound s) {fd : Fd} (hfd : fd ∉ s.opened) :
    s.fdClientMap.find? fd = none ∧ s.isListening fd = false := by
  constructor
  · cases hfind : s.fdClientMap.find? fd with
    | none => rfl
    | some id => exact absurd (h.mapped fd id hfind).1 hfd
  · exact Bool.eq_false_iff.mpr fun hlistening => hfd (h.listening fd hlistening)

/-- A descriptor that was not open is watched and mapped to a client that owns it. -/
theorem Sound.mapFd (h : Sound s) {fd : Fd} {id nextId : Nat} {clients : List ClientNode}
    (hfd : fd ∉ s.opened) (hnumber : fd ≠ -1) (hnodup : (clients.map ClientNode.id).Nodup)
    (hlt : ∀ n ∈ clients, n.id < nextId) (horderly : ∀ n ∈ clients, n.client.Orderly)
    (hown : ∀ n ∈ clients, n.client.fd = fd ∧ n.id = id ∨
      s.fdClientMap.find? n.client.fd = some n.id)
    (hcgi : ∀ n ∈ clients, n.client.context.cgiSocket ≠ -1 →
      n.client.context.cgiSocket = fd ∧ n.id = id ∨
        s.fdClientMap.find? n.client.context.cgiSocket = some n.id)
    (hne_cgi : ∀ n ∈ clients, n.client.fd ≠ n.client.context.cgiSocket)
    (hnew : ∃ n ∈ clients, n.id = id ∧ (fd = n.client.fd ∨ fd = n.client.context.cgiSocket))
    (hold : ∀ fd' id', s.fdClientMap.find? fd' = some id' →
      ∃ n ∈ clients, n.id = id' ∧ (fd' = n.client.fd ∨ fd' = n.client.context.cgiSocket)) :
    Sound { s with
      clients := clients, nextId := nextId, fdClientMap := s.fdClientMap.insert fd id
      opened := fd :: s.opened, interest := fd :: s.interest } := by
  obtain ⟨hunmapped, hnot⟩ := h.unused hfd
  have hself : (s.fdClientMap.insert fd id).find? fd = some id := OrderedMap.find?_insert_self _ _ _
  have hkeep : ∀ fd', fd' ≠ fd → (s.fdClientMap.insert fd id).find? fd' = s.fdClientMap.find? fd' :=
    fun fd' hne => OrderedMap.find?_insert_of_ne _ hne _
  have hall : ∀ fd' id', fd' = fd ∧ id' = id ∨ s.fdClientMap.find? fd' = some id' →
      (s.fdClientMap.insert fd id).find? fd' = some id' := by
    rintro fd' id' (⟨rfl, rfl⟩ | hfind)
    · exact hself
    · rw [hkeep fd' (by rintro rfl; rw [hunmapped] at hfind; cases hfind), hfind]
  refine ⟨fun fd' hfd' => List.mem_cons_of_mem _ (h.listening fd' hfd'), hnodup, hlt, horderly,
    fun n hn => hall _ _ (hown n hn), fun n hn hne => hall _ _ (hcgi n hn hne), hne_cgi, ?_, ?_, ?_⟩
  · intro fd' id' hfind
    dsimp only at hfind
    by_cases heq : fd' = fd
    · subst heq
      rw [hself] at hfind
      rw [← Option.some.inj hfind]
      exact hnew
    · rw [hkeep _ heq] at hfind
      exact hold fd' id' hfind
  · intro fd' id' hfind
    dsimp only at hfind
    by_cases heq : fd' = fd
    · rw [heq]
      exact ⟨List.mem_cons_self .., hnumber, hnot⟩
    · rw [hkeep _ heq] at hfind
      obtain ⟨hopen, hrest⟩ := h.mapped fd' id' hfind
      exact ⟨List.mem_cons_of_mem _ hopen, hrest⟩
  · intro fd' hmem
    dsimp only
    by_cases heq : fd' = fd
    · rw [heq, hself]
      exact Or.inr rfl
    · rw [hkeep _ heq]
      exact h.interest fd' ((List.mem_cons.mp hmem).resolve_left heq)

end Sound

/-! ## New connections -/

/-- A descriptor that is closed right after it was opened leaves no trace. -/
theorem closeFd_openFd {s : EventLoop} {fd : Fd} (h : fd ∉ s.opened) : (s.openFd fd).closeFd fd = s := by
  have hfilter : (fd :: s.opened).filter (· ≠ fd) = s.opened := by
    rw [List.filter_cons_of_neg (by simp), List.filter_eq_self]
    intro fd' hmem
    exact decide_eq_true fun heq => h (heq ▸ hmem)
  rw [openFd, closeFd, hfilter]

/-- A connection is accepted whose socket cannot be added to epoll. -/
def FailsInit (s : EventLoop) (sys : AcceptSys) : Prop :=
  (s.fresh sys.accept).isSome = true ∧ sys.construct = true ∧ sys.epollCtl = false

/-- A new connection, when it can be watched.  Its descriptor was not open before, hence not in the map
either. -/
theorem Sound.addConnection {s : EventLoop} (h : Sound s) {sys : AcceptSys}
    (hinit : ¬ s.FailsInit sys) (socket : Fd) : Sound (s.addConnection sys socket) := by
  unfold EventLoop.addConnection
  cases hfresh : s.fresh sys.accept with
  | none => exact h
  | some fd =>
    obtain ⟨hclosed, hnumber⟩ := fresh_eq_some hfresh
    dsimp only
    split_ifs with hconstruct hctl
    · refine h.mapFd hclosed hnumber ?_ ?_ ?_ ?_ ?_ ?_ ?_ ?_ <;> dsimp only [watch, openFd]
      · rw [List.map_cons, List.nodup_cons]
        refine ⟨fun hmem => ?_, h.nodup⟩
        obtain ⟨n, hn, hid⟩ := List.mem_map.mp hmem
        exact absurd hid (Nat.ne_of_lt (h.lt_nextId n hn))
      · rw [List.forall_mem_cons]
        exact ⟨Nat.lt_succ_self _, fun n hn => Nat.lt_succ_of_lt (h.lt_nextId n hn)⟩
      · rw [List.forall_mem_cons]
        exact ⟨Or.inl (Client.awaitsHead_init _ _ _ _ _), h.orderly⟩
      · rw [List.forall_mem_cons]
        exact ⟨Or.inl ⟨rfl, rfl⟩, fun n hn => Or.inr (h.own n hn)⟩
      · rw [List.forall_mem_cons]
        exact ⟨fun hcgi => absurd rfl hcgi, fun n hn hcgi => Or.inr (h.cgi n hn hcgi)⟩
      · rw [List.forall_mem_cons]
        exact ⟨hnumber, h.ne_cgi⟩
      · exact ⟨_, List.mem_cons_self .., rfl, Or.inl rfl⟩
      · intro fd' id hfind
        obtain ⟨n, hn, howns⟩ := h.owned fd' id hfind
        exact ⟨n, List.mem_cons_of_mem _ hn, howns⟩
    · exact absurd ⟨by rw [hfresh]; rfl, hconstruct, Bool.eq_false_iff.mpr hctl⟩ hinit
    · rwa [closeFd_openFd hclosed]

/-! ## Calls -/

section Calls

variable {s : EventLoop} {id : Nat} {c c' : Client}

/-- The nodes after a call: the one that was called, and the others as they were. -/
theorem mem_setClient (hmem : ⟨id, c⟩ ∈ s.clients) {n : ClientNode} :
    n ∈ (s.setClient id c').clients ↔ n = ⟨id, c'⟩ ∨ n ∈ s.clients ∧ n.id ≠ id := by
  rw [setClient, List.mem_map]
  constructor
  · rintro ⟨m, hm, rfl⟩
    split_ifs with hid
    · rw [hid]
      exact Or.inl rfl
    · exact Or.inr ⟨hm, hid⟩
  · rintro (rfl | ⟨hn, hid⟩)
    · exact ⟨⟨id, c⟩, hmem, if_pos rfl⟩
    · exact ⟨n, hn, if_neg hid⟩

theorem map_id_setClient : (s.setClient id c').clients.map ClientNode.id =
    s.clients.map ClientNode.id := by
  rw [setClient, List.map_map]
  refine List.map_congr_left fun n _ => ?_
  dsimp only [Function.comp]
  split_ifs <;> rfl

/-- A call that keeps what the server looks at.  The table knows a client by its two descriptors and nothing
else. -/
theorem Sound.setClient (h : Sound s) (hmem : ⟨id, c⟩ ∈ s.clients) (horderly : c'.Orderly)
    (hfd : c'.fd = c.fd) (hcgi : c'.context.cgiSocket = c.context.cgiSocket) :
    Sound (s.setClient id c') := by
  have hall : ∀ n ∈ (s.setClient id c').clients, ∃ m ∈ s.clients, m.id = n.id ∧
      m.client.fd = n.client.fd ∧ m.client.context.cgiSocket = n.client.context.cgiSocket := by
    intro n hn
    rcases (mem_setClient hmem).mp hn with rfl | ⟨hn, -⟩
    · exact ⟨⟨id, c⟩, hmem, rfl, hfd.symm, hcgi.symm⟩
    · exact ⟨n, hn, rfl, rfl, rfl⟩
  refine ⟨h.listening, ?_, ?_, ?_, ?_, ?_, ?_, ?_, h.mapped, h.interest⟩
  · rw [map_id_setClient]
    exact h.nodup
  · intro n hn
    obtain ⟨m, hm, hid, -⟩ := hall n hn
    rw [← hid]
    exact h.lt_nextId m hm
  · intro n hn
    rcases (mem_setClient hmem).mp hn with rfl | ⟨hn, -⟩
    · exact horderly
    · exact h.orderly n hn
  · intro n hn
    obtain ⟨m, hm, hid, hfd, -⟩ := hall n hn
    rw [← hid, ← hfd]
    exact h.own m hm
  · intro n hn
    obtain ⟨m, hm, hid, -, hcgi⟩ := hall n hn
    rw [← hid, ← hcgi]
    exact h.cgi m hm
  · intro n hn
    obtain ⟨m, hm, -, hfd, hcgi⟩ := hall n hn
    rw [← hfd, ← hcgi]
    exact h.ne_cgi m hm
  · intro fd id' hfind
    obtain ⟨n, hn, rfl, howns⟩ := h.owned fd id' hfind
    by_cases hid : n.id = id
    · have heq : n = ⟨id, c⟩ := h.eq_of_id hn hmem hid
      refine ⟨⟨id, c'⟩, (mem_setClient hmem).mpr (Or.inl rfl), hid.symm, ?_⟩
      rw [heq] at howns
      rwa [hfd, hcgi]
    · exact ⟨n, (mem_setClient hmem).mpr (Or.inr ⟨hn, hid⟩), rfl, howns⟩

/-- A call that opened a CGI: its socket is watched, and mapped to the client. -/
theorem Sound.attach (h : Sound s) (hmem : ⟨id, c⟩ ∈ s.clients) (horderly : c'.Orderly)
    (hfd : c'.fd = c.fd) (hnone : c.context.cgiSocket = -1) (hclosed : c'.context.cgiSocket ∉ s.opened)
    (hnumber : c'.context.cgiSocket ≠ -1) :
    Sound ((((s.setClient id c').openFd c'.context.cgiSocket).watch c'.context.cgiSocket).mapFd
      c'.context.cgiSocket id) := by
  refine h.mapFd hclosed hnumber ?_ ?_ ?_ ?_ ?_ ?_ ?_ ?_ <;> dsimp only [watch, openFd]
  · rw [map_id_setClient]
    exact h.nodup
  · intro n hn
    rcases (mem_setClient hmem).mp hn with rfl | ⟨hn, -⟩
    · exact h.lt_nextId ⟨id, c⟩ hmem
    · exact h.lt_nextId n hn
  · intro n hn
    rcases (mem_setClient hmem).mp hn with rfl | ⟨hn, -⟩
    · exact horderly
    · exact h.orderly n hn
  · intro n hn
    rcases (mem_setClient hmem).mp hn with rfl | ⟨hn, -⟩
    · right
      rw [hfd]
      exact h.own ⟨id, c⟩ hmem
    · exact Or.inr (h.own n hn)
  · intro n hn hcgi
    rcases (mem_setClient hmem).mp hn with rfl | ⟨hn, -⟩
    · exact Or.inl ⟨rfl, rfl⟩
    · exact Or.inr (h.cgi n hn hcgi)
  · intro n hn
    rcases (mem_setClient hmem).mp hn with rfl | ⟨hn, -⟩
    · intro heq
      have hopen := (h.mapped c.fd id (h.own ⟨id, c⟩ hmem)).1
      rw [← hfd, show c'.fd = c'.context.cgiSocket from heq] at hopen
      exact hclosed hopen
    · exact h.ne_cgi n hn
  · exact ⟨⟨id, c'⟩, (mem_setClient hmem).mpr (Or.inl rfl), rfl, Or.inr rfl⟩
  · intro fd' id' hfind
    obtain ⟨n, hn, rfl, howns⟩ := h.owned fd' id' hfind
    by_cases hid : n.id = id
    · have heqn : n = ⟨id, c⟩ := h.eq_of_id hn hmem hid
      refine ⟨⟨id, c'⟩, (mem_setClient hmem).mpr (Or.inl rfl), hid.symm, ?_⟩
      rw [heqn] at howns
      rcases howns with hown | hcgi
      · exact Or.inl (hown.trans hfd.symm)
      · exact absurd (hcgi.trans hnone) (h.mapped fd' n.id hfind).2.1
    · exact ⟨n, (mem_setClient hmem).mpr (Or.inr ⟨hn, hid⟩), rfl, howns⟩

/-- `std::find` finds the client itself. -/
theorem Sound.findClient (h : Sound s) (hmem : ⟨id, c⟩ ∈ s.clients) (hfd : c'.fd = c.fd) :
    (s.setClient id c').findClient c' = some ⟨id, c'⟩ := by
  unfold EventLoop.findClient
  cases hfind : (s.setClient id c').clients.find? fun n => n.client.fd = c'.fd with
  | none =>
    have hself : ⟨id, c'⟩ ∈ (s.setClient id c').clients := (mem_setClient hmem).mpr (Or.inl rfl)
    exact absurd (decide_eq_true rfl) (List.find?_eq_none.mp hfind _ hself)
  | some n =>
    have heq : n.client.fd = c'.fd := by simpa using List.find?_some hfind
    rcases (mem_setClient hmem).mp (List.mem_of_find?_eq_some hfind) with rfl | ⟨hn, hid⟩
    · rfl
    · have hsame : n = ⟨id, c⟩ := h.eq_of_fd hn hmem (heq.trans hfd)
      rw [hsame] at hid
      exact absurd rfl hid

/-- What a call into a client may do: keep what the server looks at, or open the socket of a CGI and have it
watched. -/
def Admissible (f : Sys → Client → Ret × Client) (c : Client) : Prop :=
  ∀ sys, (f sys c).2.Orderly ∧
    (c.Steady (f sys c).2 ∨ c.context.cgiSocket = -1 ∧ Client.Attaches sys c (f sys c))

/-- The sockets of a CGI that a client has opened were not open before. -/
structure OpensCGI (s : EventLoop) (c' : Client) : Prop where
  closed : c'.context.cgiSocket ∉ s.opened
  number : c'.context.cgiSocket ≠ -1
  childEnd : ∀ fd ∈ c'.context.world.childEnd, fd ∉ s.opened ∧ fd ≠ c'.context.cgiSocket

/-- The client after a call has the sockets it had before, or a new one that was added to epoll. -/
structure Sockets (s : EventLoop) (sys : Sys) (c c' : Client) : Prop where
  orderly : c'.Orderly
  fd : c'.fd = c.fd
  cgi : c'.context.cgiSocket = c.context.cgiSocket ∨
    c.context.cgiSocket = -1 ∧ OpensCGI s c' ∧ sys.epollCtl c'.context.cgiSocket = true

/-- The pair that the kernel gave is a new one. -/
theorem opensCGI_of_pair {sys : Sys} (hpair : Handler.OpensPair (s.answers sys c) c'.context) :
    OpensCGI s c' := by
  obtain ⟨pair, hpair, hcgi, hchild⟩ := hpair
  have hfresh := (Option.filter_eq_some_iff.mp hpair).2
  unfold freshPair at hfresh
  obtain ⟨hparent, hother, hne⟩ := of_decide_eq_true hfresh
  refine ⟨by rwa [hcgi], ?_, fun fd hfd => ?_⟩
  · rw [hcgi]
    exact fun heq : (pair.1 : Int) = -1 => by omega
  · rw [(hchild fd hfd).1, hcgi]
    exact ⟨hother, fun heq : (pair.2 : Int) = pair.1 => by omega⟩

/-- The sockets of a client after a call that throws no exception. -/
theorem sockets_of_admissible {sys : Sys} {f : Sys → Client → Ret × Client} {c : Client}
    (hf : Admissible f { c with context := c.context.setFs s.fs })
    (hret : ∀ fault, (f (s.answers sys c) { c with context := c.context.setFs s.fs }).1 ≠ .throws fault) :
    Sockets s (s.answers sys c) c
      (f (s.answers sys c) { c with context := c.context.setFs s.fs }).2 := by
  obtain ⟨horderly, hkind⟩ := hf (s.answers sys c)
  generalize f (s.answers sys c) { c with context := c.context.setFs s.fs } = r at *
  rcases hkind with hsteady | ⟨hnone, hattaches⟩
  · exact ⟨horderly, hsteady.fd, Or.inl hsteady.cgiSocket⟩
  · refine ⟨horderly, hattaches.fd, ?_⟩
    rcases hattaches.socket with hcgi | hpair
    · exact Or.inl hcgi
    · have hopens := opensCGI_of_pair hpair
      have hctl := hattaches.registered.resolve_left fun ⟨fault, heq⟩ => hret fault heq
      exact Or.inr ⟨hnone, hopens, hctl.resolve_left hopens.number⟩

/-- Nothing is attached when the client has the socket that it had. -/
theorem attachCGI_of_same {sys : Sys} (hcgi : c'.context.cgiSocket = c.context.cgiSocket) :
    s.attachCGI sys c c' = s :=
  if_pos hcgi

theorem attachCGI_of_new (h : Sound s) (hmem : ⟨id, c⟩ ∈ s.clients) (hfd : c'.fd = c.fd) {sys : Sys}
    (hne : c'.context.cgiSocket ≠ c.context.cgiSocket)
    (hctl : sys.epollCtl c'.context.cgiSocket = true) :
    (s.setClient id c').attachCGI sys c c' =
      ((((s.leaveOpen c'.context.world.childEnd).setClient id c').openFd c'.context.cgiSocket).watch
        c'.context.cgiSocket).mapFd c'.context.cgiSocket id := by
  have hfind : ((((s.setClient id c').leaveOpen c'.context.world.childEnd).openFd c'.context.cgiSocket).watch
      c'.context.cgiSocket).findClient c' = some ⟨id, c'⟩ := h.findClient hmem hfd
  unfold attachCGI
  dsimp only
  rw [if_neg hne, if_pos hctl, addCGIToClientMap, hfind]
  rfl

/-- An open socket that nothing knows of.  The table is about the descriptors that it lists, so that such a
leak leaves it sound. -/
theorem Sound.leaveOpen (h : Sound s) (childEnd : Option Fd) : Sound (s.leaveOpen childEnd) :=
  { h with
    listening := fun fd hlistening => List.mem_append_right _ (h.listening fd hlistening)
    mapped := fun fd id hfind =>
      ⟨List.mem_append_right _ (h.mapped fd id hfind).1, (h.mapped fd id hfind).2⟩ }

/-- The parent's end is not open, also when that of the child is. -/
theorem OpensCGI.notMem_leaveOpen (h : OpensCGI s c') :
    c'.context.cgiSocket ∉ (s.leaveOpen c'.context.world.childEnd).opened := by
  refine fun hmem => (List.mem_append.mp hmem).elim (fun hchild => ?_) h.closed
  exact (h.childEnd _ (Option.mem_toList.mp hchild)).2 rfl

theorem Sound.attachCGI (h : Sound s) (hmem : ⟨id, c⟩ ∈ s.clients) {sys : Sys}
    (hsockets : Sockets s sys c c') : Sound ((s.setClient id c').attachCGI sys c c') := by
  rcases hsockets.cgi with hcgi | ⟨hnone, hopens, hctl⟩
  · rw [attachCGI_of_same hcgi]
    exact h.setClient hmem hsockets.orderly hsockets.fd hcgi
  · rw [attachCGI_of_new h hmem hsockets.fd (by rw [hnone]; exact hopens.number) hctl]
    exact (h.leaveOpen _).attach hmem hsockets.orderly hsockets.fd hnone hopens.notMem_leaveOpen hopens.number

theorem setFs_attachCGI (s : EventLoop) (fs : FileSystem) (sys : Sys) (c c' : Client) :
    ({ s with fs := fs } : EventLoop).attachCGI sys c c' =
      { s.attachCGI sys c c' with fs := fs } := by
  unfold EventLoop.attachCGI
  dsimp only
  split_ifs
  · rfl
  · unfold addCGIToClientMap EventLoop.findClient
    dsimp only [openFd, watch, EventLoop.leaveOpen]
    cases s.clients.find? fun n => n.client.fd = c'.fd <;> rfl
  · rfl

/-- What a call through an iterator of a client does to the server. -/
theorem call_cases (hclient : s.client? id = some c) (sys : Sys) (f : Sys → Client → Ret × Client) :
    ((s.call id sys f).2.down.isSome = true ∧ ∃ fault, (s.call id sys f).1 = .throws fault) ∨
      (∀ fault, (f (s.answers sys c) { c with context := c.context.setFs s.fs }).1 ≠ .throws fault) ∧
        (s.call id sys f).2 = { (s.setClient id (f (s.answers sys c)
            { c with context := c.context.setFs s.fs }).2).attachCGI (s.answers sys c) c
              (f (s.answers sys c) { c with context := c.context.setFs s.fs }).2 with
          fs := (f (s.answers sys c)
            { c with context := c.context.setFs s.fs }).2.context.world.fs } := by
  unfold EventLoop.call
  rw [hclient]
  dsimp only
  generalize f (s.answers sys c) { c with context := c.context.setFs s.fs } = r
  obtain ⟨ret, c'⟩ := r
  rw [setFs_attachCGI]
  cases ret with
  | throws fault => exact Or.inl ⟨rfl, fault, rfl⟩
  | _ => exact Or.inr ⟨fun _ heq => (nomatch heq), rfl⟩

/-- A call that throws no exception. -/
theorem Sound.call_of_returns (h : Sound s) (hclient : s.client? id = some c) {sys : Sys}
    {f : Sys → Client → Ret × Client} (hf : Admissible f { c with context := c.context.setFs s.fs })
    (hret : ∀ fault, (s.call id sys f).1 ≠ .throws fault) : Sound (s.call id sys f).2 := by
  rcases call_cases hclient sys f with ⟨-, fault, hthrows⟩ | ⟨hreturns, heq⟩
  · exact absurd hthrows (hret fault)
  · rw [heq]
    exact (h.attachCGI (client?_eq_some hclient) (sockets_of_admissible hf hreturns)).congr
      rfl rfl rfl rfl rfl rfl

/-- A call that does not end the server.  It may have opened the socket of a CGI, and then the server
attaches it. -/
theorem Sound.call (h : Sound s) (hclient : s.client? id = some c) {sys : Sys}
    {f : Sys → Client → Ret × Client} (hf : Admissible f { c with context := c.context.setFs s.fs })
    (hdown : (s.call id sys f).2.down = none) : Sound (s.call id sys f).2 := by
  rcases call_cases hclient sys f with ⟨hsome, -⟩ | ⟨hreturns, heq⟩
  · rw [hdown] at hsome
    cases hsome
  · rw [heq]
    exact (h.attachCGI (client?_eq_some hclient) (sockets_of_admissible hf hreturns)).congr
      rfl rfl rfl rfl rfl rfl

theorem orderly_setFs (h : c.Orderly) (fs : FileSystem) :
    Client.Orderly { c with context := c.context.setFs fs } :=
  h.imp (fun hawaits => { hawaits with }) id

/-- A reading event opens a CGI at most, and only of a client that has none. -/
theorem admissible_handleIn {fd : Fd} (h : c.Orderly)
    (hcgi : fd ≠ c.fd → c.context.cgiSocket ≠ -1) : Admissible (Client.handleIn fd) c := by
  intro sys
  unfold Client.handleIn
  split_ifs with hfd
  · obtain ⟨horderly, hsteady | ⟨hawaits, hattaches⟩⟩ := h.handleSocketIn sys
    · exact ⟨horderly, Or.inl hsteady⟩
    · exact ⟨horderly, Or.inr ⟨hawaits.cgiSocket, hattaches⟩⟩
  · exact ⟨h.handleCGIIn sys (hcgi hfd), Or.inl (Client.steady_handleCGIIn sys (hcgi hfd))⟩

/-- A writing event opens nothing.  Only an event of the client socket resolves a request, and only that
starts a CGI. -/
theorem admissible_handleOut {fd : Fd} (h : c.Orderly)
    (hcgi : fd ≠ c.fd → c.context.cgiSocket ≠ -1) : Admissible (Client.handleOut fd) c := by
  intro sys
  unfold Client.handleOut
  split_ifs with hfd
  · exact ⟨h.handleSocketOut sys, Or.inl (Client.steady_handleSocketOut c sys)⟩
  · exact ⟨h.handleCGIOut sys (hcgi hfd), Or.inl (Client.steady_handleCGIOut c sys)⟩

/-- A check of the timeouts opens nothing either. -/
theorem admissible_timeoutCheck (h : c.Orderly) :
    Admissible (fun sys c => c.timeoutCheck sys) c := fun sys =>
  ⟨h.timeoutCheck sys, Or.inl (Client.steady_timeoutCheck c sys)⟩

/-- The handlers of the server: a descriptor of the map that is not the client's own is its CGI's. -/
inductive Handles (fd : Fd) : (Sys → Client → Ret × Client) → Prop where
  | handleIn : Handles fd (Client.handleIn fd)
  | handleOut : Handles fd (Client.handleOut fd)

/-- The handlers may be called through the map: they are called for a socket that the client has. -/
theorem Sound.admissible (h : Sound s) {fd : Fd} (hfind : s.fdClientMap.find? fd = some id)
    (hclient : s.client? id = some c) {f : Sys → Client → Ret × Client} (hf : Handles fd f) :
    Admissible f { c with context := c.context.setFs s.fs } := by
  have hmem := client?_eq_some hclient
  have horderly := orderly_setFs (h.orderly ⟨id, c⟩ hmem) s.fs
  have hcgi : fd ≠ c.fd → c.context.cgiSocket ≠ -1 := by
    intro hne heq
    obtain ⟨c', hclient', howns⟩ := h.client? hfind
    rw [hclient] at hclient'
    cases hclient'
    exact (h.mapped fd id hfind).2.1 ((howns.resolve_left hne).trans heq)
  cases hf with
  | handleIn => exact admissible_handleIn horderly hcgi
  | handleOut => exact admissible_handleOut horderly hcgi

end Calls

/-! ## Removal -/

section Removal

variable {s s' : EventLoop} {epollDel : Fd → Bool} {id : Nat} {c : Client}

/-- A socket that is dropped without an exception was none, or is gone from epoll, the map and the kernel. -/
theorem dropFd_ok {fd : Fd} (h : s.dropFd epollDel fd = .ok s') :
    fd = -1 ∧ s' = s ∨ fd ≠ -1 ∧ s' = { s with
      interest := s.interest.filter (· ≠ fd), fdClientMap := s.fdClientMap.erase fd
      opened := s.opened.filter (· ≠ fd) } := by
  unfold dropFd at h
  split_ifs at h with hnone hdel
  · cases h
    exact Or.inl ⟨hnone, rfl⟩
  · cases h
    exact Or.inr ⟨hnone, rfl⟩

/-- What a removal does to the server: its descriptors leave the map and the interest list, its events are
neutralised, and every other entry stays. -/
structure Dropped (s : EventLoop) (id : Nat) (c : Client) (s' : EventLoop) : Prop where
  server : s'.server = s.server
  nextId : s'.nextId = s.nextId
  down : s'.down = s.down
  clients : s'.clients = s.clients.filter fun n => n.id ≠ id
  events : s'.events = s.events.map fun ev => neutralise c.context.cgiSocket (neutralise c.fd ev)
  log : s'.log = s.log ++ [.remove id]
  map : ∀ fd id', s'.fdClientMap.find? fd = some id' ↔
    s.fdClientMap.find? fd = some id' ∧ fd ≠ c.fd ∧ (fd = c.context.cgiSocket → fd = -1)
  opened : ∀ fd ∈ s.opened, fd ≠ c.fd → (fd = c.context.cgiSocket → fd = -1) → fd ∈ s'.opened
  interest : ∀ fd ∈ s'.interest,
    fd ∈ s.interest ∧ fd ≠ c.fd ∧ (fd = c.context.cgiSocket → fd = -1)

theorem down_dropFd {fd : Fd} (h : s.dropFd epollDel fd = .ok s') : s'.down = s.down := by
  rcases dropFd_ok h with ⟨-, rfl⟩ | ⟨-, rfl⟩ <;> rfl

/-- A removal closes one socket after the other, and then takes the client out of the list. -/
theorem dropClient_ok (h : s.dropClient epollDel id c = .ok s') :
    ∃ s₁ s₂, s.dropFd epollDel c.fd = .ok s₁ ∧ s₁.dropFd epollDel c.context.cgiSocket = .ok s₂ ∧
      s' = { s₂ with
        events := s₂.events.map fun ev => neutralise c.context.cgiSocket (neutralise c.fd ev)
        clients := s₂.clients.filter fun n => n.id ≠ id
        log := s₂.log ++ [.remove id] } := by
  unfold dropClient at h
  dsimp only [bind, Except.bind] at h
  cases hfirst : s.dropFd epollDel c.fd with
  | error fault =>
    rw [hfirst] at h
    cases h
  | ok s₁ =>
    rw [hfirst] at h
    dsimp only at h
    cases hsecond : s₁.dropFd epollDel c.context.cgiSocket with
    | error fault =>
      rw [hsecond] at h
      cases h
    | ok s₂ =>
      rw [hsecond] at h
      cases h
      exact ⟨s₁, s₂, rfl, hsecond, rfl⟩

theorem down_dropClient (h : s.dropClient epollDel id c = .ok s') : s'.down = s.down := by
  obtain ⟨s₁, s₂, hfirst, hsecond, rfl⟩ := dropClient_ok h
  exact (down_dropFd hsecond).trans (down_dropFd hfirst)

theorem orphans_dropFd {fd : Fd} (h : s.dropFd epollDel fd = .ok s') : s'.orphans = s.orphans := by
  rcases dropFd_ok h with ⟨-, rfl⟩ | ⟨-, rfl⟩ <;> rfl

/-- A removal closes nothing that no client has. -/
theorem orphans_dropClient (h : s.dropClient epollDel id c = .ok s') : s'.orphans = s.orphans := by
  obtain ⟨s₁, s₂, hfirst, hsecond, rfl⟩ := dropClient_ok h
  exact (orphans_dropFd hsecond).trans (orphans_dropFd hfirst)

theorem dropped_dropClient (hfd : c.fd ≠ -1) (h : s.dropClient epollDel id c = .ok s') :
    Dropped s id c s' := by
  obtain ⟨s₁, s₂, hfirst, hsecond, rfl⟩ := dropClient_ok h
  obtain ⟨hnone, -⟩ | ⟨-, hs₁⟩ := dropFd_ok hfirst
  · exact absurd hnone hfd
  have hmap₁ : ∀ fd id', s₁.fdClientMap.find? fd = some id' ↔
      s.fdClientMap.find? fd = some id' ∧ fd ≠ c.fd := by
    intro fd id'
    rw [hs₁]
    constructor
    · intro hfind
      exact (OrderedMap.find?_erase_eq_some hfind).symm
    · rintro ⟨hfind, hne⟩
      rwa [OrderedMap.find?_erase_of_ne _ hne]
  have hopened₁ : ∀ fd, fd ∈ s₁.opened ↔ fd ∈ s.opened ∧ fd ≠ c.fd := by
    intro fd
    simp [hs₁]
  have hinterest₁ : ∀ fd, fd ∈ s₁.interest ↔ fd ∈ s.interest ∧ fd ≠ c.fd := by
    intro fd
    simp [hs₁]
  obtain ⟨hnone, rfl⟩ | ⟨hsome, rfl⟩ := dropFd_ok hsecond
  · rw [hnone]
    subst hs₁
    refine ⟨rfl, rfl, rfl, rfl, by rw [hnone], rfl, ?_, ?_, ?_⟩
    · intro fd id'
      rw [hmap₁, hnone]
      exact ⟨fun ⟨hfind, hne⟩ => ⟨hfind, hne, fun heq => heq⟩, fun ⟨hfind, hne, _⟩ => ⟨hfind, hne⟩⟩
    · intro fd hmem hne _
      exact (hopened₁ fd).mpr ⟨hmem, hne⟩
    · intro fd hmem
      rw [hnone]
      exact ⟨((hinterest₁ fd).mp hmem).1, ((hinterest₁ fd).mp hmem).2, fun heq => heq⟩
  · subst hs₁
    have hnot : ∀ fd, (fd = c.context.cgiSocket → fd = -1) ↔ fd ≠ c.context.cgiSocket :=
      fun fd => ⟨fun himp heq => hsome (heq.symm.trans (himp heq)), fun hne heq => absurd heq hne⟩
    refine ⟨rfl, rfl, rfl, rfl, rfl, rfl, ?_, ?_, ?_⟩
    · intro fd id'
      rw [hnot, ← and_assoc, ← hmap₁]
      constructor
      · intro hfind
        exact (OrderedMap.find?_erase_eq_some hfind).symm
      · rintro ⟨hfind, hne⟩
        exact (OrderedMap.find?_erase_of_ne _ hne).trans hfind
    · intro fd hmem hne hcgi
      exact List.mem_filter.mpr ⟨(hopened₁ fd).mpr ⟨hmem, hne⟩, decide_eq_true ((hnot fd).mp hcgi)⟩
    · intro fd hmem
      obtain ⟨hin, hne⟩ := List.mem_filter.mp hmem
      exact ⟨((hinterest₁ fd).mp hin).1, ((hinterest₁ fd).mp hin).2,
        (hnot fd).mpr (of_decide_eq_true hne)⟩

/-- A removal leaves a table without the client: its node and all its descriptors are taken out together. -/
theorem Sound.dropped (h : Sound s) (hmem : ⟨id, c⟩ ∈ s.clients) (hdropped : Dropped s id c s') :
    Sound s' := by
  have hlistening : ∀ fd, s'.isListening fd = s.isListening fd := fun fd => by
    rw [isListening, isListening, hdropped.server]
  have hother : ∀ n ∈ s'.clients, n ∈ s.clients ∧ n.id ≠ id := by
    intro n hn
    rw [hdropped.clients, List.mem_filter] at hn
    exact ⟨hn.1, of_decide_eq_true hn.2⟩
  -- the descriptors of another client are none of this one
  have hkeep : ∀ fd id', s.fdClientMap.find? fd = some id' → id' ≠ id →
      s'.fdClientMap.find? fd = some id' := by
    intro fd id' hfind hne
    refine (hdropped.map fd id').mpr ⟨hfind, ?_, ?_⟩
    · rintro rfl
      rw [h.own ⟨id, c⟩ hmem] at hfind
      exact hne (Option.some.inj hfind).symm
    · intro heq
      by_contra hsome
      have hcgi := h.cgi ⟨id, c⟩ hmem (heq ▸ hsome)
      rw [heq, show s.fdClientMap.find? c.context.cgiSocket = some id from hcgi] at hfind
      exact hne (Option.some.inj hfind).symm
  refine ⟨?_, ?_, ?_, ?_, ?_, ?_, ?_, ?_, ?_, ?_⟩
  · intro fd hfd
    rw [hlistening] at hfd
    have hunmapped : ∀ id', s.fdClientMap.find? fd ≠ some id' := by
      intro id' hfind
      have hnot := (h.mapped fd id' hfind).2.2
      rw [hfd] at hnot
      cases hnot
    refine hdropped.opened fd (h.listening fd hfd) ?_ ?_
    · rintro rfl
      exact hunmapped id (h.own ⟨id, c⟩ hmem)
    · intro heq
      by_contra hsome
      exact hunmapped id (heq ▸ h.cgi ⟨id, c⟩ hmem (heq ▸ hsome))
  · rw [hdropped.clients]
    exact h.nodup.sublist (List.filter_sublist.map _)
  · intro n hn
    rw [hdropped.nextId]
    exact h.lt_nextId n (hother n hn).1
  · exact fun n hn => h.orderly n (hother n hn).1
  · exact fun n hn => hkeep _ _ (h.own n (hother n hn).1) (hother n hn).2
  · exact fun n hn hcgi => hkeep _ _ (h.cgi n (hother n hn).1 hcgi) (hother n hn).2
  · exact fun n hn => h.ne_cgi n (hother n hn).1
  · intro fd id' hfind
    obtain ⟨hbefore, hne, hcgi⟩ := (hdropped.map fd id').mp hfind
    obtain ⟨n, hn, rfl, howns⟩ := h.owned fd id' hbefore
    refine ⟨n, ?_, rfl, howns⟩
    rw [hdropped.clients, List.mem_filter]
    refine ⟨hn, decide_eq_true fun hid => ?_⟩
    have heq : n = ⟨id, c⟩ := h.eq_of_id hn hmem hid
    rw [heq] at howns
    rcases howns with hown | hown
    · exact hne hown
    · exact (h.mapped fd n.id hbefore).2.1 (hcgi hown)
  · intro fd id' hfind
    obtain ⟨hbefore, hne, hcgi⟩ := (hdropped.map fd id').mp hfind
    obtain ⟨hopen, hnumber, hnot⟩ := h.mapped fd id' hbefore
    exact ⟨hdropped.opened fd hopen hne hcgi, hnumber, by rw [hlistening, hnot]⟩
  · intro fd hfd
    obtain ⟨hin, hne, hcgi⟩ := hdropped.interest fd hfd
    rw [hlistening]
    rcases h.interest fd hin with hlisten | hmapped
    · exact Or.inl hlisten
    · obtain ⟨id', hfind⟩ := Option.isSome_iff_exists.mp hmapped
      rw [(hdropped.map fd id').mpr ⟨hfind, hne, hcgi⟩]
      exact Or.inr rfl

/-- A removal does not end an exception. -/
theorem down_of_removeConnection {fd : Fd} (h : (s.removeConnection epollDel fd).2.down = none) :
    s.down = none := by
  unfold EventLoop.removeConnection at h
  cases hclient : (s.fdClientMap.find? fd).bind fun id => (s.client? id).map fun c => (id, c) with
  | none =>
    rw [hclient] at h
    cases h
  | some n =>
    rw [hclient] at h
    dsimp only at h
    split_ifs at h with hcgi
    · exact h
    · cases hdrop : s.dropClient epollDel n.1 n.2 with
      | error fault =>
        rw [hdrop] at h
        cases h
      | ok s' =>
        rw [hdrop] at h
        rwa [down_dropClient hdrop] at h

/-- What `_removeConnection` does, for a descriptor of the map: it ends with an exception, leaves the table,
or takes the client of the descriptor out of it. -/
theorem Sound.removeConnection_cases (h : Sound s) {fd : Fd}
    (hfind : s.fdClientMap.find? fd = some id) (epollDel : Fd → Bool) :
    ((s.removeConnection epollDel fd).2.down.isSome = true ∧
        (s.removeConnection epollDel fd).2.log = s.log) ∨
      s.removeConnection epollDel fd = (false, s) ∨
      (s.removeConnection epollDel fd).1 = true ∧ ∃ c, ⟨id, c⟩ ∈ s.clients ∧ fd = c.fd ∧
        Dropped s id c (s.removeConnection epollDel fd).2 := by
  obtain ⟨c, hclient, howns⟩ := h.client? hfind
  have hmem := client?_eq_some hclient
  unfold removeConnection
  rw [hfind, Option.bind_some, hclient, Option.map_some]
  dsimp only
  split_ifs with hcgi
  · exact Or.inr (Or.inl rfl)
  · cases hdrop : s.dropClient epollDel id c with
    | error fault => exact Or.inl ⟨rfl, rfl⟩
    | ok s' =>
      have hfd := (h.mapped c.fd id (h.own ⟨id, c⟩ hmem)).2.1
      exact Or.inr (Or.inr ⟨rfl, c, hmem, howns.resolve_right hcgi, dropped_dropClient hfd hdrop⟩)

/-- A removal that throws nothing, for any descriptor. -/
theorem Sound.removeConnection (h : Sound s) (epollDel : Fd → Bool) (fd : Fd)
    (hdown : (s.removeConnection epollDel fd).2.down = none) :
    Sound (s.removeConnection epollDel fd).2 := by
  cases hfind : s.fdClientMap.find? fd with
  | none =>
    unfold EventLoop.removeConnection at hdown
    rw [hfind] at hdown
    cases hdown
  | some id =>
    rcases h.removeConnection_cases hfind epollDel with ⟨hsome, -⟩ | heq | ⟨-, c, hmem, -, hdropped⟩
    · rw [hdown] at hsome
      cases hsome
    · rw [heq]
      exact h
    · exact h.dropped hmem hdropped

end Removal

/-! ## The operations -/

section Operations

variable {s : EventLoop}

/-- At the start there is nobody, and only the listening sockets are open. -/
theorem sound_start (server : Server) (fs : FileSystem) : Sound (start server fs) := by
  refine ⟨?_, List.nodup_nil, ?_, ?_, ?_, ?_, ?_, ?_, ?_, ?_⟩
  · intro fd hlistening
    obtain ⟨blocks, hfind⟩ := Option.isSome_iff_exists.mp hlistening
    exact List.mem_map.mpr ⟨_, OrderedMap.find?_eq_some_iff.mp hfind, rfl⟩
  · exact fun n hn => absurd hn List.not_mem_nil
  · exact fun n hn => absurd hn List.not_mem_nil
  · exact fun n hn => absurd hn List.not_mem_nil
  · exact fun n hn => absurd hn List.not_mem_nil
  · exact fun n hn => absurd hn List.not_mem_nil
  · exact fun fd id hfind => absurd hfind (by rw [start, OrderedMap.find?_empty]; exact nofun)
  · exact fun fd id hfind => absurd hfind (by rw [start, OrderedMap.find?_empty]; exact nofun)
  · intro fd hfd
    obtain ⟨e, he, rfl⟩ := List.mem_map.mp hfd
    refine Or.inl ?_
    rw [isListening, show (start server fs).server.serverBlocks.find? e.1 = some e.2 from
      OrderedMap.find?_eq_some_iff.mpr he]
    rfl

theorem Sound.callFd (h : Sound s) {fd : Fd} {sys : Sys} {f : Sys → Client → Ret × Client}
    (hf : Handles fd f) (hdown : (s.callFd fd sys f).down = none) : Sound (s.callFd fd sys f) := by
  unfold EventLoop.callFd at hdown ⊢
  cases hfind : s.fdClientMap.find? fd with
  | none => exact h
  | some id =>
    rw [hfind] at hdown
    obtain ⟨c, hclient, -⟩ := h.client? hfind
    exact h.call hclient (h.admissible hfind hclient hf) hdown

/-- One client of the sweep: its timeouts are checked, and it is removed when they say so. -/
theorem Sound.checkClient (h : Sound s) (sys : Sys) (epollDel : Fd → Bool) (id : Nat)
    (hdown : (s.checkClient sys epollDel id).down = none) :
    Sound (s.checkClient sys epollDel id) := by
  unfold EventLoop.checkClient at hdown ⊢
  by_cases hsome : s.down.isSome = true
  · rw [if_pos hsome]
    exact h
  rw [if_neg hsome] at hdown ⊢
  have hcall : ∀ r, s.call id sys (fun sys c => c.timeoutCheck sys) = r → r.2.down = none →
      Sound r.2 := by
    rintro r rfl hnone
    cases hclient : s.client? id with
    | none =>
      unfold EventLoop.call at hnone
      rw [hclient] at hnone
      cases hnone
    | some c =>
      have horderly := orderly_setFs (h.orderly ⟨id, c⟩ (client?_eq_some hclient)) s.fs
      exact h.call hclient (admissible_timeoutCheck horderly) hnone
  generalize hr : s.call id sys (fun sys c => c.timeoutCheck sys) = r at hdown ⊢
  obtain ⟨ret, s'⟩ := r
  cases ret with
  | reqContinue => exact hcall _ hr hdown
  | throws fault => exact hcall _ hr hdown
  | reqDone | reqError =>
    -- the client is removed, through its own socket
    dsimp only at hdown ⊢
    cases hclient : s'.client? id with
    | none =>
      rw [hclient] at hdown
      cases hdown
    | some c =>
      rw [hclient] at hdown
      exact (hcall _ hr (down_of_removeConnection hdown)).removeConnection _ _ hdown

/-- The sweep goes over the numbers that were in the list at its start. -/
theorem sound_foldl_checkClient (answers : Nat → Sys) (epollDel : Fd → Bool) :
    ∀ (ids : List Nat) {s : EventLoop}, (s.down = none → Sound s) →
      (ids.foldl (fun s id => s.checkClient (answers id) epollDel id) s).down = none →
      Sound (ids.foldl (fun s id => s.checkClient (answers id) epollDel id) s)
  | [], s, h, hdown => h hdown
  | id :: ids, s, h, hdown => by
    refine sound_foldl_checkClient answers epollDel ids (fun hnone => ?_) hdown
    by_cases hsome : s.down.isSome = true
    · have hsame : s.checkClient (answers id) epollDel id = s := if_pos hsome
      dsimp only at hnone
      rw [hsame] at hnone
      rw [hnone] at hsome
      cases hsome
    · exact (h (Option.not_isSome_iff_eq_none.mp hsome)).checkClient _ _ _ hnone

theorem Sound.checkClientsTimeout (h : Sound s) (answers : Nat → Sys) (epollDel : Fd → Bool)
    (hdown : (s.checkClientsTimeout answers epollDel).down = none) :
    Sound (s.checkClientsTimeout answers epollDel) :=
  sound_foldl_checkClient answers epollDel _ (fun _ => h) hdown

/-- No accepted socket is one that cannot be added to epoll. -/
def KeepsTable (s : EventLoop) : Operation → Prop
  | .addConnection sys _ => ¬ s.FailsInit sys
  | _ => True

/-- One operation.  The table is sound before it as long as the server runs, and afterwards unless an
exception left it. -/
theorem sound_step {op : Operation} (h : s.down = none → Sound s) (hkeeps : s.KeepsTable op)
    (hdown : (s.step op).down = none) : Sound (s.step op) := by
  unfold EventLoop.step at hdown ⊢
  by_cases hsome : s.down.isSome = true
  · rw [if_pos hsome] at hdown
    rw [hdown] at hsome
    cases hsome
  have hsound := h (Option.not_isSome_iff_eq_none.mp hsome)
  rw [if_neg hsome] at hdown ⊢
  cases op with
  | addConnection sys socket => exact hsound.addConnection hkeeps socket
  | handleIn sys fd => exact hsound.callFd .handleIn hdown
  | handleOut sys fd => exact hsound.callFd .handleOut hdown
  | removeConnection epollDel fd => exact hsound.removeConnection epollDel fd hdown
  | checkClientsTimeout answers epollDel => exact hsound.checkClientsTimeout answers epollDel hdown

/-- The invariant after any sequence of operations, by induction on them. -/
theorem sound_run (server : Server) (fs : FileSystem) (ops : List Operation)
    (hkeeps : Transition.Along step KeepsTable (start server fs) ops)
    (hdown : ((start server fs).run ops).down = none) : Sound ((start server fs).run ops) :=
  Transition.run_invariant (I := fun s => s.down = none → Sound s)
    (fun _ _ h hc hnone => sound_step h hc hnone) (fun _ => sound_start server fs) hkeeps hdown

/-- **The table after any run.**  As long as every accepted socket can be added to epoll, the list and
the map agree after every operation that throws no exception. -/
theorem consistent_run (server : Server) (fs : FileSystem) (ops : List Operation)
    (hkeeps : Transition.Along step KeepsTable (start server fs) ops)
    (hdown : ((start server fs).run ops).down = none) : Consistent ((start server fs).run ops) :=
  (sound_run server fs ops hkeeps hdown).consistent

end Operations

/-! ## A connection that cannot be watched -/

/-- A server that listens on one socket. -/
def oneServer : EventLoop :=
  start (.single 3 { locations := [Client.fileLocation] } fun _ => 0) Client.fileSystem

set_option maxRecDepth 10000 in
/-- A client comes, sends a request and is removed, and its number is given to the next one. -/
theorem consistent_run_reused :
    (oneServer.run [.addConnection ⟨some 4, true, true, 0⟩ 3,
        .handleIn (.receiving Client.fileRequest) 4, .removeConnection (fun _ => true) 4,
        .addConnection ⟨some 4, true, true, 0⟩ 3]).clients.map ClientNode.id = [1] ∧
      Consistent (oneServer.run [.addConnection ⟨some 4, true, true, 0⟩ 3,
        .handleIn (.receiving Client.fileRequest) 4, .removeConnection (fun _ => true) 4,
        .addConnection ⟨some 4, true, true, 0⟩ 3]) :=
  ⟨by decide, consistent_run _ _ _
    ⟨fun hfails => (nomatch hfails.2.2), trivial, trivial, fun hfails => (nomatch hfails.2.2), trivial⟩
    (by decide)⟩

/-- The socket of a client is accepted, and `epoll_ctl` fails in `init`. -/
theorem not_consistent_run :
    let s := oneServer.run [.addConnection ⟨some 4, true, false, 0⟩ 3]
    s.down = none ∧ s.clients.map (fun n => n.client.fd) = [4] ∧ s.fdClientMap.find? 4 = none ∧
      ¬ Consistent s := by
  have hclients : (oneServer.run
      [.addConnection ⟨some 4, true, false, 0⟩ 3]).clients.map (fun n => n.client.fd) = [4] := rfl
  have hunmapped : (oneServer.run
      [.addConnection ⟨some 4, true, false, 0⟩ 3]).fdClientMap.find? 4 = none := rfl
  refine ⟨rfl, hclients, hunmapped, fun hconsistent => ?_⟩
  obtain ⟨n, hn, hfd⟩ := List.mem_map.mp (hclients ▸ List.mem_singleton.mpr rfl : (4 : Fd) ∈ _)
  have hown := hconsistent.own n hn
  rw [hfd, hunmapped] at hown
  cases hown

end EventLoop
end Webserv
