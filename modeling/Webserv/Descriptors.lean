import Webserv.ServerLoop
import Webserv.VirtualHosts

/-!
# The descriptors of the server

A descriptor is opened when a connection is accepted or a CGI is started, and closed when its client is
removed.  This module says which sockets are open in any state that `main` can reach, over any number of
calls of `routine`, any exceptions and any restarts after them.

## Which sockets are nobody's

`_openCGI` opens a pair of sockets and then calls `fork`.  On the way on which `fork` succeeds it closes the
child's end; on the way on which it fails it returns, with both ends open.  The parent's end is in the client
and is closed with it.  The number of the child's end is kept in the client as well, but nothing that closes
sockets looks at it: neither `_removeConnection`, which goes through the two descriptors of the client, nor
`~Server`, which goes through its two tables.  Such a socket stays open until the process ends.  It is one of
the `orphans` of the state, and the theorems say that there are no other lost sockets: `orphans_turn` that
none is added unless a `fork` fails, `opened_destroy` that the destructor leaves these and no more.

## Why `epoll_ctl` has to succeed

`Client::init` closes the socket of a client that cannot be registered and leaves the client in the list, and
`_removeConnection` throws when a socket cannot be taken out of epoll, between the two halves of the removal.
After either the tables do not agree any more with what the kernel knows, and the statements are false.  So
`Registers` is a hypothesis of all of them: every `epoll_ctl` of the run succeeds.  Nothing is assumed of the
other calls, and an exception of any other origin may end the server at any point.

## Main results

* `Tidy`: the invariant, which `Tidy.turn` carries over a turn and `Tidy.live` over a round of `main`.
* `shutdown`: what a signal leaves.
* `destroy`, `restart`, `Life`: the server over the restarts of `main`.
* `accounted_live`: the sockets that are open, and those that epoll watches, in every state of a run.
-/

namespace Webserv

/-- One of the two sockets of the client that the server can close: its own, or the parent's end of the pair
of its CGI, if it has one. -/
def Client.Holds (c : Client) (fd : Fd) : Prop := fd = c.fd ∨ fd = c.context.cgiSocket ∧ fd ≠ -1

/-- The kernel for a process that has some sockets open already.  It does not hand out their numbers a
second time: an answer that does stands for a call that fails. -/
def ListenSys.beside (sys : ListenSys) (opened : List Fd) : ListenSys :=
  { sys with fails := fun n => sys.fails n || opened.contains (sys.socket n) }

namespace EventLoop

/-! ## The answers of `epoll_ctl` -/

/-- Every call of `epoll_ctl` in the turn succeeds. -/
def Turn.Registers : Turn → Prop
  | .accept sys _ => sys.epollCtl = true
  | .input sys epollDel _ => (∀ fd, sys.epollCtl fd = true) ∧ ∀ fd, epollDel fd = true
  | .output sys epollDel _ => (∀ fd, sys.epollCtl fd = true) ∧ ∀ fd, epollDel fd = true
  | .remove epollDel _ => ∀ fd, epollDel fd = true
  | .sweep timeouts epollDel =>
    (∀ id fd, (timeouts id).epollCtl fd = true) ∧ ∀ fd, epollDel fd = true

structure EventSys.Registers (sys : EventSys) : Prop where
  accept : sys.accept.epollCtl = true
  input : ∀ fd, sys.input.epollCtl fd = true
  output : ∀ fd, sys.output.epollCtl fd = true
  epollDel : ∀ fd, sys.epollDel fd = true

/-- Every call of `epoll_ctl` in a call of `routine` succeeds.  Where one fails, the code throws or leaves a
socket unwatched, and the books are not in order. -/
structure Iteration.Registers (it : Iteration) : Prop where
  answers : ∀ sys ∈ it.answers, sys.Registers
  timeouts : ∀ id fd, (it.timeouts id).epollCtl fd = true
  epollDel : ∀ fd, it.epollDel fd = true

theorem Iteration.Offers.registers {s : EventLoop} {it : Iteration} {t : Turn}
    (h : it.Offers s t) (hregisters : it.Registers) : t.Registers := by
  cases h with
  | accept hsys => exact (hregisters.answers _ hsys).accept
  | input hsys => exact ⟨(hregisters.answers _ hsys).input, (hregisters.answers _ hsys).epollDel⟩
  | output hsys => exact ⟨(hregisters.answers _ hsys).output, (hregisters.answers _ hsys).epollDel⟩
  | hangup hsys => exact (hregisters.answers _ hsys).epollDel
  | shutdown => exact hregisters.epollDel
  | sweep => exact ⟨hregisters.timeouts, hregisters.epollDel⟩

theorem Offered.registers {s : EventLoop} {its : List Iteration} {t : Turn}
    (hregisters : ∀ it ∈ its, it.Registers) (h : Offered its s t) : t.Registers := by
  obtain ⟨it, hit, hoffers⟩ := h
  exact hoffers.registers (hregisters it hit)

/-! ## The answers of `fork` -/

/-- No call of `fork` in the turn fails. -/
def Turn.Forks : Turn → Prop
  | .input sys _ _ | .output sys _ _ => sys.fork.isSome = true
  | .sweep timeouts _ => ∀ id, (timeouts id).fork.isSome = true
  | _ => True

/-- No call of `fork` in a call of `routine` fails, so that no end of a socket pair is left open. -/
structure Iteration.Forks (it : Iteration) : Prop where
  input : ∀ sys ∈ it.answers, sys.input.fork.isSome = true
  output : ∀ sys ∈ it.answers, sys.output.fork.isSome = true
  timeouts : ∀ id, (it.timeouts id).fork.isSome = true

theorem Iteration.Offers.forks {s : EventLoop} {it : Iteration} {t : Turn} (h : it.Offers s t)
    (hforks : it.Forks) : t.Forks := by
  cases h with
  | input hsys => exact hforks.input _ hsys
  | output hsys => exact hforks.output _ hsys
  | sweep => exact hforks.timeouts
  | accept | hangup | shutdown => exact trivial

/-! ## The invariant -/

/-- The table is sound, and of the sockets that are open, each once, epoll watches all but the child's ends
that a failed `fork` left.  Of those the server has no number any more: they are no listening socket and
not in the map, so that nothing can close them. -/
structure Tidy (s : EventLoop) : Prop extends Sound s where
  watched : s.opened.Perm (s.orphans ++ s.interest)
  once : s.opened.Nodup
  unknown : ∀ fd ∈ s.orphans, s.isListening fd = false ∧ s.fdClientMap.find? fd = none

section Tidy

variable {s s' : EventLoop} {id : Nat} {c c' : Client}

/-- The record, the batch, the file system and an exception play no part in it. -/
theorem Tidy.congr (h : Tidy s) (hserver : s'.server = s.server) (hclients : s'.clients = s.clients)
    (hmap : s'.fdClientMap = s.fdClientMap) (hopened : s'.opened = s.opened)
    (hinterest : s'.interest = s.interest) (hid : s'.nextId = s.nextId)
    (horphans : s'.orphans = s.orphans) : Tidy s' where
  toSound := h.toSound.congr hserver hclients hmap hopened hinterest hid
  watched := by
    rw [hinterest, hopened, horphans]
    exact h.watched
  once := by
    rw [hopened]
    exact h.once
  unknown := by
    rw [horphans, hmap]
    simpa only [isListening, hserver] using h.unknown

theorem Tidy.notMem_orphans (h : Tidy s) {fd : Fd} (hfind : s.fdClientMap.find? fd = some id) :
    fd ∉ s.orphans := by
  intro horphan
  rw [(h.unknown fd horphan).2] at hfind
  cases hfind

/-- The sockets of a client are in the map, so that an event of either finds the client again. -/
theorem Tidy.find?_of_holds (h : Tidy s) {n : ClientNode} (hn : n ∈ s.clients) {fd : Fd}
    (hholds : n.client.Holds fd) : s.fdClientMap.find? fd = some n.id := by
  rcases hholds with rfl | ⟨rfl, hnumber⟩
  · exact h.own n hn
  · exact h.cgi n hn hnumber

/-- The sockets that epoll watches: those that listen and those of the clients, and no other. -/
theorem Tidy.mem_interest (h : Tidy s) {fd : Fd} :
    fd ∈ s.interest ↔ s.isListening fd = true ∨ ∃ n ∈ s.clients, n.client.Holds fd := by
  have hopen : fd ∈ s.opened → fd ∉ s.orphans → fd ∈ s.interest := fun hmem horphan =>
    (List.mem_append.mp (h.watched.mem_iff.mp hmem)).resolve_left horphan
  constructor
  · intro hmem
    rcases h.interest fd hmem with hlistening | hmapped
    · exact Or.inl hlistening
    · obtain ⟨id, hfind⟩ := Option.isSome_iff_exists.mp hmapped
      obtain ⟨n, hn, -, hown | hcgi⟩ := h.owned fd id hfind
      · exact Or.inr ⟨n, hn, Or.inl hown⟩
      · exact Or.inr ⟨n, hn, Or.inr ⟨hcgi, (h.mapped fd id hfind).2.1⟩⟩
  · rintro (hlistening | ⟨n, hn, hholds⟩)
    · refine hopen (h.listening fd hlistening) fun horphan => ?_
      rw [(h.unknown fd horphan).1] at hlistening
      cases hlistening
    · have hfind := h.find?_of_holds hn hholds
      exact hopen (h.mapped fd n.id hfind).1 (h.notMem_orphans hfind)

/-- The sockets that are open: the watched ones, and those that a failed `fork` left behind, which nothing
will close. -/
theorem Tidy.mem_opened (h : Tidy s) {fd : Fd} : fd ∈ s.opened ↔
    (s.isListening fd = true ∨ ∃ n ∈ s.clients, n.client.Holds fd) ∨ fd ∈ s.orphans := by
  rw [h.watched.mem_iff, List.mem_append, h.mem_interest, or_comm]

theorem tidy_start (server : Server) (fs : FileSystem) : Tidy (start server fs) where
  toSound := sound_start server fs
  watched := List.Perm.refl _
  once := List.pairwise_map.mpr
    (server.serverBlocks.sorted.imp fun hlt heq => by rw [heq] at hlt; exact absurd hlt (by simp))
  unknown := fun fd hfd => absurd hfd List.not_mem_nil

/-- A socket that was not open is opened, watched and mapped. -/
theorem Tidy.open (h : Tidy s) {fd : Fd} (hclosed : fd ∉ s.opened) (hsound : Sound s')
    (hserver : s'.server = s.server)
    (hmap : ∀ fd', fd' ≠ fd → s'.fdClientMap.find? fd' = s.fdClientMap.find? fd')
    (hopened : s'.opened = fd :: s.opened) (hinterest : s'.interest = fd :: s.interest)
    (horphans : s'.orphans = s.orphans) : Tidy s' where
  toSound := hsound
  watched := by
    rw [hinterest, hopened, horphans]
    exact (h.watched.cons fd).trans List.perm_middle.symm
  once := by
    rw [hopened]
    exact List.nodup_cons.mpr ⟨hclosed, h.once⟩
  unknown := by
    rw [horphans]
    intro fd' horphan
    have hne : fd' ≠ fd := by
      rintro rfl
      exact hclosed (h.watched.mem_iff.mpr (List.mem_append_left _ horphan))
    rw [hmap fd' hne, isListening, hserver]
    exact h.unknown fd' horphan

/-- The child's end of a pair was not open before, and nothing learns of its number. -/
theorem Tidy.leaveOpen (h : Tidy s) {childEnd : Option Fd} (hclosed : ∀ fd ∈ childEnd, fd ∉ s.opened) :
    Tidy (s.leaveOpen childEnd) := by
  have hsound := h.toSound.leaveOpen childEnd
  cases childEnd with
  | none => exact ⟨hsound, h.watched, h.once, h.unknown⟩
  | some fd =>
    have hfd : fd ∉ s.opened := hclosed fd rfl
    refine ⟨hsound, h.watched.cons fd, List.nodup_cons.mpr ⟨hfd, h.once⟩, ?_⟩
    intro fd' horphan
    rcases List.mem_cons.mp horphan with rfl | horphan
    · exact (h.toSound.unused hfd).symm
    · exact h.unknown fd' horphan

/-! ## Turns -/

theorem Tidy.addConnection (h : Tidy s) {sys : AcceptSys} (hctl : sys.epollCtl = true) (socket : Fd) :
    Tidy (s.addConnection sys socket) := by
  have hinit : ¬ s.FailsInit sys := by
    rintro ⟨-, -, hfails⟩
    rw [hctl] at hfails
    cases hfails
  have hsound := h.toSound.addConnection hinit socket
  unfold EventLoop.addConnection at hsound ⊢
  cases hfresh : s.fresh sys.accept with
  | none => exact h
  | some fd =>
    have hclosed := (fresh_eq_some hfresh).1
    rw [hfresh] at hsound
    dsimp only at hsound ⊢
    split_ifs at hsound ⊢ with hconstruct
    · exact h.open hclosed hsound rfl (fun fd' hne => OrderedMap.find?_insert_of_ne _ hne _) rfl rfl rfl
    · rwa [closeFd_openFd hclosed]

/-- The client after a call, also after one that throws. -/
theorem sockets_of_registers {sys : Sys} {f : Sys → Client → Ret × Client}
    (hf : Admissible f { c with context := c.context.setFs s.fs })
    (hctl : ∀ fd, sys.epollCtl fd = true) :
    Sockets s (s.answers sys c) c
      (f (s.answers sys c) { c with context := c.context.setFs s.fs }).2 := by
  obtain ⟨horderly, hkind⟩ := hf (s.answers sys c)
  generalize f (s.answers sys c) { c with context := c.context.setFs s.fs } = r at *
  rcases hkind with hsteady | ⟨hnone, hattaches⟩
  · exact ⟨horderly, hsteady.fd, Or.inl hsteady.cgiSocket⟩
  · refine ⟨horderly, hattaches.fd, ?_⟩
    rcases hattaches.socket with hcgi | hpair
    · exact Or.inl hcgi
    · exact Or.inr ⟨hnone, opensCGI_of_pair hpair, hctl _⟩

theorem Tidy.attachCGI (h : Tidy s) (hmem : ⟨id, c⟩ ∈ s.clients) {sys : Sys}
    (hsockets : Sockets s sys c c') : Tidy ((s.setClient id c').attachCGI sys c c') := by
  have hsound := h.toSound.attachCGI hmem hsockets
  rcases hsockets.cgi with hcgi | ⟨hnone, hopens, hctl⟩
  · rw [attachCGI_of_same hcgi] at hsound ⊢
    exact ⟨hsound, h.watched, h.once, h.unknown⟩
  · have hnew : c'.context.cgiSocket ≠ c.context.cgiSocket := by
      rw [hnone]
      exact hopens.number
    rw [attachCGI_of_new h.toSound hmem hsockets.fd hnew hctl] at hsound ⊢
    have hleft : Tidy (s.leaveOpen c'.context.world.childEnd) :=
      h.leaveOpen fun fd hfd => (hopens.childEnd fd hfd).1
    exact hleft.open hopens.notMem_leaveOpen hsound rfl
      (fun fd' hne => OrderedMap.find?_insert_of_ne _ hne _) rfl rfl rfl

/-- What a call does to the server, whether it throws or not. -/
theorem call_eq (hclient : s.client? id = some c) (sys : Sys) (f : Sys → Client → Ret × Client) :
    ∃ down, (s.call id sys f).2 = { (s.setClient id (f (s.answers sys c)
        { c with context := c.context.setFs s.fs }).2).attachCGI (s.answers sys c) c
          (f (s.answers sys c) { c with context := c.context.setFs s.fs }).2 with
      fs := (f (s.answers sys c) { c with context := c.context.setFs s.fs }).2.context.world.fs
      down := down } := by
  unfold EventLoop.call
  rw [hclient]
  dsimp only
  generalize f (s.answers sys c) { c with context := c.context.setFs s.fs } = r
  rw [setFs_attachCGI]
  obtain ⟨ret, c'⟩ := r
  cases ret <;> exact ⟨_, rfl⟩

theorem Tidy.call (h : Tidy s) {sys : Sys} {f : Sys → Client → Ret × Client}
    (hf : ∀ c, s.client? id = some c → Admissible f { c with context := c.context.setFs s.fs })
    (hctl : ∀ fd, sys.epollCtl fd = true) : Tidy (s.call id sys f).2 := by
  cases hclient : s.client? id with
  | none =>
    unfold EventLoop.call
    rw [hclient]
    exact h.congr rfl rfl rfl rfl rfl rfl rfl
  | some c =>
    obtain ⟨down, heq⟩ := call_eq hclient sys f
    rw [heq]
    exact (h.attachCGI (client?_eq_some hclient)
      (sockets_of_registers (hf c hclient) hctl)).congr rfl rfl rfl rfl rfl rfl rfl

/-- A socket that the server has the number of is closed, and not watched any more. -/
theorem dropFd_eq_ok {epollDel : Fd → Bool} (hdel : ∀ fd, epollDel fd = true) {s : EventLoop} {fd : Fd}
    (hwatched : s.opened.Perm (s.orphans ++ s.interest)) (hknown : fd ≠ -1 → fd ∉ s.orphans) :
    ∃ s', s.dropFd epollDel fd = .ok s' ∧ s'.opened.Perm (s'.orphans ++ s'.interest) ∧
      s'.opened.Sublist s.opened := by
  unfold dropFd
  split_ifs with hnone hfails
  · exact ⟨s, rfl, hwatched, List.Sublist.refl _⟩
  · refine ⟨_, rfl, ?_, List.filter_sublist⟩
    have hkept : s.orphans.filter (· ≠ fd) = s.orphans := by
      refine List.filter_eq_self.mpr fun fd' horphan => decide_eq_true ?_
      rintro rfl
      exact hknown hnone horphan
    show (s.opened.filter (· ≠ fd)).Perm (s.orphans ++ s.interest.filter (· ≠ fd))
    rw [← hkept, ← List.filter_append]
    exact hwatched.filter _
  · exact absurd (hdel fd) hfails

/-- The two sockets of a client are closed and taken out of the watched ones, so that what is open is still
what is watched or left behind. -/
theorem dropClient_eq_ok {epollDel : Fd → Bool} (hdel : ∀ fd, epollDel fd = true) {s : EventLoop}
    (id : Nat) {c : Client} (hwatched : s.opened.Perm (s.orphans ++ s.interest))
    (hknown : ∀ fd, c.Holds fd → fd ∉ s.orphans) :
    ∃ s', s.dropClient epollDel id c = .ok s' ∧ s'.opened.Perm (s'.orphans ++ s'.interest) ∧
      s'.opened.Sublist s.opened := by
  have hown : c.fd ≠ -1 → c.fd ∉ s.orphans := fun _ => hknown c.fd (Or.inl rfl)
  obtain ⟨s₁, heq₁, hwatched₁, hsub₁⟩ := dropFd_eq_ok hdel hwatched hown
  have hcgi : c.context.cgiSocket ≠ -1 → c.context.cgiSocket ∉ s₁.orphans := by
    rw [orphans_dropFd heq₁]
    exact fun hnumber => hknown _ (Or.inr ⟨rfl, hnumber⟩)
  obtain ⟨s₂, heq₂, hwatched₂, hsub₂⟩ := dropFd_eq_ok hdel hwatched₁ hcgi
  unfold dropClient
  rw [heq₁]
  dsimp only [bind, Except.bind]
  rw [heq₂]
  exact ⟨_, rfl, hwatched₂, hsub₂.trans hsub₁⟩

/-- A client is removed through its own socket. -/
theorem Tidy.removeConnection_own (h : Tidy s) {n : ClientNode} (hn : n ∈ s.clients)
    {epollDel : Fd → Bool} (hdel : ∀ fd, epollDel fd = true) :
    Tidy (s.removeConnection epollDel n.client.fd).2 ∧
      (s.removeConnection epollDel n.client.fd).2.down = s.down ∧
      (s.removeConnection epollDel n.client.fd).2.clients = s.clients.filter (·.id ≠ n.id) := by
  have hfind := h.own n hn
  have hnumber := (h.mapped _ _ hfind).2.1
  obtain ⟨c, hclient, -⟩ := h.client? hfind
  have hmem := client?_eq_some hclient
  obtain rfl : n.client = c := congrArg ClientNode.client (h.eq_of_id hn hmem rfl)
  have hknown : ∀ fd, n.client.Holds fd → fd ∉ s.orphans := fun fd hholds =>
    h.notMem_orphans (h.find?_of_holds hn hholds)
  obtain ⟨s', hdrop, hwatched, hsub⟩ := dropClient_eq_ok hdel n.id h.watched hknown
  have hdropped := dropped_dropClient hnumber hdrop
  have hunknown : ∀ fd ∈ s'.orphans, s'.isListening fd = false ∧ s'.fdClientMap.find? fd = none := by
    intro fd horphan
    obtain ⟨hlistening, hunmapped⟩ := h.unknown fd (orphans_dropClient hdrop ▸ horphan)
    refine ⟨by rwa [isListening, hdropped.server], Option.eq_none_iff_forall_ne_some.mpr ?_⟩
    intro id' hsome
    rw [((hdropped.map fd id').mp hsome).1] at hunmapped
    cases hunmapped
  unfold EventLoop.removeConnection
  rw [hfind, Option.bind_some, hclient, Option.map_some]
  dsimp only
  rw [if_neg (h.ne_cgi n hn), hdrop]
  exact ⟨⟨h.toSound.dropped hmem hdropped, hwatched, h.once.sublist hsub, hunknown⟩, hdropped.down,
    hdropped.clients⟩

theorem Tidy.removeConnection (h : Tidy s) {epollDel : Fd → Bool} (hdel : ∀ fd, epollDel fd = true)
    (fd : Fd) : Tidy (s.removeConnection epollDel fd).2 := by
  cases hfind : s.fdClientMap.find? fd with
  | none =>
    unfold EventLoop.removeConnection
    rw [hfind]
    exact h.congr rfl rfl rfl rfl rfl rfl rfl
  | some id =>
    obtain ⟨n, hn, rfl, hown | hcgi⟩ := h.owned fd id hfind
    · rw [hown]
      exact (h.removeConnection_own hn hdel).1
    · -- the socket of a CGI: the removal is refused
      obtain ⟨c, hclient, -⟩ := h.client? hfind
      obtain rfl : n.client = c :=
        congrArg ClientNode.client (h.eq_of_id hn (client?_eq_some hclient) rfl)
      unfold EventLoop.removeConnection
      rw [hfind, Option.bind_some, hclient, Option.map_some]
      dsimp only
      rw [if_pos hcgi]
      exact h

theorem Tidy.serveFd (h : Tidy s) {epollDel : Fd → Bool} {fd : Fd} {sys : Sys}
    {f : Sys → Client → Ret × Client} (hf : Handles fd f) (hctl : ∀ fd, sys.epollCtl fd = true)
    (hdel : ∀ fd, epollDel fd = true) : Tidy (s.serveFd epollDel fd sys f) := by
  unfold EventLoop.serveFd
  cases hfind : s.fdClientMap.find? fd with
  | none => exact h
  | some id =>
    have hcall : Tidy (s.call id sys f).2 :=
      h.call (fun c hclient => h.toSound.admissible hfind hclient hf) hctl
    dsimp only
    generalize s.call id sys f = r at hcall ⊢
    obtain ⟨ret, s'⟩ := r
    cases ret with
    | reqContinue | throws => exact hcall
    | reqDone | reqError => exact hcall.removeConnection hdel fd

theorem Tidy.checkClient (h : Tidy s) {sys : Sys} {epollDel : Fd → Bool} (id : Nat)
    (hctl : ∀ fd, sys.epollCtl fd = true) (hdel : ∀ fd, epollDel fd = true) :
    Tidy (s.checkClient sys epollDel id) := by
  unfold EventLoop.checkClient
  split_ifs
  · exact h
  · have hcall : Tidy (s.call id sys fun sys c => c.timeoutCheck sys).2 :=
      h.call (fun c hclient => admissible_timeoutCheck
        (orderly_setFs (h.orderly ⟨id, c⟩ (client?_eq_some hclient)) s.fs)) hctl
    generalize s.call id sys (fun sys c => c.timeoutCheck sys) = r at hcall ⊢
    obtain ⟨ret, s'⟩ := r
    cases ret with
    | reqContinue | throws => exact hcall
    | reqDone | reqError =>
      dsimp only
      cases s'.client? id with
      | none => exact hcall.congr rfl rfl rfl rfl rfl rfl rfl
      | some c => exact hcall.removeConnection hdel c.fd

theorem Tidy.checkClientsTimeout (h : Tidy s) {timeouts : Nat → Sys} {epollDel : Fd → Bool}
    (hctl : ∀ id fd, (timeouts id).epollCtl fd = true) (hdel : ∀ fd, epollDel fd = true) :
    Tidy (s.checkClientsTimeout timeouts epollDel) := by
  unfold EventLoop.checkClientsTimeout
  generalize s.clients.map ClientNode.id = ids
  induction ids generalizing s with
  | nil => exact h
  | cons id ids ih => exact ih (h.checkClient id (hctl id) hdel)

/-- One turn, whether it ends with an exception or not. -/
theorem Tidy.turn (h : Tidy s) {t : Turn} (hregisters : t.Registers) : Tidy (s.turn t) := by
  cases hdown : s.down with
  | some fault =>
    unfold EventLoop.turn
    rw [hdown]
    exact h
  | none =>
    rw [turn_of_up hdown]
    cases t with
    | accept sys socket => exact h.addConnection hregisters socket
    | input sys epollDel fd => exact h.serveFd .handleIn hregisters.1 hregisters.2
    | output sys epollDel fd => exact h.serveFd .handleOut hregisters.1 hregisters.2
    | remove epollDel fd => exact h.removeConnection hregisters fd
    | sweep timeouts epollDel => exact h.checkClientsTimeout hregisters.1 hregisters.2

/-! ## The child's ends

They are left in calls into clients only, and only in those in which `fork` fails. -/

theorem orphans_addConnection (s : EventLoop) (sys : AcceptSys) (socket : Fd) :
    (s.addConnection sys socket).orphans = s.orphans := by
  unfold EventLoop.addConnection
  cases s.fresh sys.accept with
  | none => rfl
  | some fd =>
    dsimp only
    split_ifs <;> rfl

theorem orphans_removeConnection (s : EventLoop) (epollDel : Fd → Bool) (fd : Fd) :
    (s.removeConnection epollDel fd).2.orphans = s.orphans := by
  unfold EventLoop.removeConnection
  cases (s.fdClientMap.find? fd).bind fun id => (s.client? id).map fun c => (id, c) with
  | none => rfl
  | some n =>
    dsimp only
    split_ifs
    · rfl
    · cases hdrop : s.dropClient epollDel n.1 n.2 with
      | error fault => rfl
      | ok s' => exact orphans_dropClient hdrop

/-- A call that opens a CGI leaves the child's end that the client still has. -/
theorem orphans_attachCGI (s : EventLoop) (sys : Sys) (before after : Client) :
    (s.attachCGI sys before after).orphans = s.orphans ∨
      after.context.cgiSocket ≠ before.context.cgiSocket ∧
        (s.attachCGI sys before after).orphans = after.context.world.childEnd.toList ++ s.orphans := by
  unfold EventLoop.attachCGI
  dsimp only
  split_ifs with hsame
  · exact Or.inl rfl
  · unfold addCGIToClientMap
    cases (((s.leaveOpen after.context.world.childEnd).openFd after.context.cgiSocket).watch
      after.context.cgiSocket).findClient after <;> exact Or.inr ⟨hsame, rfl⟩
  · exact Or.inr ⟨hsame, rfl⟩

theorem orphans_call {sys : Sys} {f : Sys → Client → Ret × Client}
    (hf : ∀ c, s.client? id = some c → Admissible f { c with context := c.context.setFs s.fs })
    (hfork : sys.fork.isSome = true) : (s.call id sys f).2.orphans = s.orphans := by
  cases hclient : s.client? id with
  | none =>
    unfold EventLoop.call
    rw [hclient]
  | some c =>
    obtain ⟨down, heq⟩ := call_eq hclient sys f
    obtain ⟨-, hkind⟩ := hf c hclient (s.answers sys c)
    rw [heq]
    dsimp only
    generalize f (s.answers sys c) { c with context := c.context.setFs s.fs } = r at hkind ⊢
    rcases orphans_attachCGI (s.setClient id r.2) (s.answers sys c) c r.2 with hsame | ⟨hne, hleft⟩
    · exact hsame
    · have hnone : r.2.context.world.childEnd = none := by
        rcases hkind with hsteady | ⟨-, hattaches⟩
        · exact absurd hsteady.cgiSocket hne
        · obtain ⟨pair, -, -, hchild⟩ := hattaches.socket.resolve_left hne
          refine Option.eq_none_iff_forall_ne_some.mpr fun fd hsome => ?_
          rw [show sys.fork = none from (hchild fd hsome).2] at hfork
          cases hfork
      rw [hleft, hnone]
      rfl

theorem Tidy.orphans_serveFd (h : Tidy s) {epollDel : Fd → Bool} {fd : Fd} {sys : Sys}
    {f : Sys → Client → Ret × Client} (hf : Handles fd f) (hfork : sys.fork.isSome = true) :
    (s.serveFd epollDel fd sys f).orphans = s.orphans := by
  unfold EventLoop.serveFd
  cases hfind : s.fdClientMap.find? fd with
  | none => rfl
  | some id =>
    have hcall : (s.call id sys f).2.orphans = s.orphans :=
      orphans_call (fun c hclient => h.toSound.admissible hfind hclient hf) hfork
    dsimp only
    generalize s.call id sys f = r at hcall ⊢
    obtain ⟨ret, s'⟩ := r
    cases ret with
    | reqContinue | throws => exact hcall
    | reqDone | reqError => exact (orphans_removeConnection s' epollDel fd).trans hcall

theorem Tidy.orphans_checkClient (h : Tidy s) {sys : Sys} (epollDel : Fd → Bool) (id : Nat)
    (hfork : sys.fork.isSome = true) : (s.checkClient sys epollDel id).orphans = s.orphans := by
  unfold EventLoop.checkClient
  split_ifs
  · rfl
  · have hcall : (s.call id sys fun sys c => c.timeoutCheck sys).2.orphans = s.orphans :=
      orphans_call (fun c hclient => admissible_timeoutCheck
        (orderly_setFs (h.orderly ⟨id, c⟩ (client?_eq_some hclient)) s.fs)) hfork
    generalize s.call id sys (fun sys c => c.timeoutCheck sys) = r at hcall ⊢
    obtain ⟨ret, s'⟩ := r
    cases ret with
    | reqContinue | throws => exact hcall
    | reqDone | reqError =>
      dsimp only
      cases s'.client? id with
      | none => exact hcall
      | some c => exact (orphans_removeConnection s' epollDel c.fd).trans hcall

theorem Tidy.orphans_checkClientsTimeout (h : Tidy s) {timeouts : Nat → Sys} {epollDel : Fd → Bool}
    (hctl : ∀ id fd, (timeouts id).epollCtl fd = true) (hdel : ∀ fd, epollDel fd = true)
    (hfork : ∀ id, (timeouts id).fork.isSome = true) :
    (s.checkClientsTimeout timeouts epollDel).orphans = s.orphans := by
  unfold EventLoop.checkClientsTimeout
  generalize s.clients.map ClientNode.id = ids
  induction ids generalizing s with
  | nil => rfl
  | cons id ids ih =>
    exact (ih (h.checkClient id (hctl id) hdel)).trans (h.orphans_checkClient epollDel id (hfork id))

theorem Tidy.orphans_turn (h : Tidy s) {t : Turn} (hregisters : t.Registers) (hforks : t.Forks) :
    (s.turn t).orphans = s.orphans := by
  cases hdown : s.down with
  | some fault =>
    unfold EventLoop.turn
    rw [hdown]
    rfl
  | none =>
    rw [turn_of_up hdown]
    cases t with
    | accept sys socket => exact orphans_addConnection s sys socket
    | input sys epollDel fd => exact h.orphans_serveFd .handleIn hforks
    | output sys epollDel fd => exact h.orphans_serveFd .handleOut hforks
    | remove epollDel fd => exact orphans_removeConnection s epollDel fd
    | sweep timeouts epollDel =>
      exact h.orphans_checkClientsTimeout hregisters.1 hregisters.2 hforks

/-! ## Runs -/

theorem Tidy.turns (h : Tidy s) {ts : List Turn}
    (hregisters : Transition.Along EventLoop.turn (fun _ t => t.Registers) s ts) : Tidy (s.turns ts) :=
  Transition.run_invariant (I := Tidy) (fun _ _ hs ht => hs.turn ht) h hregisters

theorem Tidy.reaches {it : Iteration} (h : Tidy s) (hregisters : it.Registers)
    (hreaches : Reaches it s s') : Tidy s' := by
  obtain ⟨ts, hall, heq⟩ := hreaches
  have hturns : Tidy (s.turns ts) := h.turns (hall.mono fun _ _ ht => ht.registers hregisters)
  rw [exists_relabel_of_bare heq]
  exact hturns.congr rfl rfl rfl rfl rfl rfl rfl

theorem Tidy.orphans_reaches {it : Iteration} (h : Tidy s) (hregisters : it.Registers)
    (hforks : it.Forks) (hreaches : Reaches it s s') : s'.orphans = s.orphans := by
  obtain ⟨ts, hall, heq⟩ := hreaches
  have halong : Transition.Along EventLoop.turn (fun _ t => t.Registers ∧ t.Forks) s ts :=
    hall.mono fun _ _ ht => ⟨ht.registers hregisters, ht.forks hforks⟩
  have hkept : (s.turns ts).orphans = s.orphans :=
    Transition.run_rel (R := fun a b : EventLoop => b.orphans = a.orphans) (fun _ => rfl)
      (fun _ _ _ hab hbc => hbc.trans hab) (fun _ _ hs ht => Tidy.turn hs ht.1)
      (fun _ _ hs ht => Tidy.orphans_turn hs ht.1 ht.2) h halong
  rw [exists_relabel_of_bare heq]
  exact hkept

theorem Tidy.serve (h : Tidy s) {its : List Iteration} (hregisters : ∀ it ∈ its, it.Registers) :
    Tidy (s.serve its) :=
  Transition.run_invariant (I := Tidy) (fun _ it hs hit => hs.reaches hit (iterate_turns _ it)) h
    (Transition.along_of_mem hregisters s)

/-- Every client is removed through its own socket.  By induction on a bound of their number, as `removeAll`
counts down. -/
theorem Tidy.removeAll {epollDel : Fd → Bool} (hdel : ∀ fd, epollDel fd = true) :
    ∀ (n : Nat) {s : EventLoop}, Tidy s → s.down = none → s.clients.length ≤ n →
      Tidy (removeAll epollDel n s) ∧ (removeAll epollDel n s).down = none ∧
        (removeAll epollDel n s).clients = []
  | 0, s, h, hup, hle => ⟨h, hup, List.length_eq_zero_iff.mp (Nat.le_zero.mp hle)⟩
  | n + 1, s, h, hup, hle => by
    unfold EventLoop.removeAll
    cases hclients : s.clients with
    | nil => exact ⟨h, hup, hclients⟩
    | cons node rest =>
      obtain ⟨htidy, hdown, hrest⟩ :=
        h.removeConnection_own (hclients ▸ List.mem_cons_self ..) (n := node) hdel
      have hnone := hdown.trans hup
      dsimp only
      rw [if_neg (by rw [hnone]; exact Bool.false_ne_true)]
      refine Tidy.removeAll hdel n htidy hnone ?_
      rw [hrest, hclients, List.filter_cons_of_neg (by simp)]
      rw [hclients, List.length_cons] at hle
      exact (List.length_filter_le _ _).trans (Nat.le_of_succ_le_succ hle)

end Tidy

/-! ## A signal -/

/-- A call of `routine` that finds a signal after its batch. -/
theorem Tidy.clients_iterate {s : EventLoop} (h : Tidy s) {it : Iteration}
    (hregisters : it.Registers) (hsignal : it.signal = true) (hevents : it.events.isSome = true)
    (hup : (s.iterate it).down = none) : (s.iterate it).clients = [] := by
  obtain ⟨events, hsome⟩ := Option.isSome_iff_exists.mp hevents
  unfold iterate at hup ⊢
  by_cases hdown : s.down.isSome = true
  · rw [if_pos hdown] at hup
    rw [hup] at hdown
    cases hdown
  have hnone := Option.not_isSome_iff_eq_none.mp hdown
  have hafter : Tidy (handleEvents it.answers { s with events := events }) :=
    h.reaches hregisters (Reaches.handleEvents (.of_bare rfl) hnone fun _ hsys => hsys)
  rw [if_neg hdown, hsome] at hup ⊢
  dsimp only at hup ⊢
  unfold routine at hup ⊢
  dsimp only at hup ⊢
  rw [if_pos hsignal] at hup ⊢
  by_cases hfault : (handleEvents it.answers { s with events := events }).down.isSome = true
  · rw [if_pos hfault] at hup
    rw [hup] at hfault
    cases hfault
  · rw [if_neg hfault]
    exact (hafter.removeAll hregisters.epollDel _ (Option.not_isSome_iff_eq_none.mp hfault)
      (le_refl _)).2.2

/-- **A signal.**  A call of `routine` that finds a signal after its batch, on a server that has made any
number of calls before, leaves no client and no entry of the map, unless an exception ends it.  The sockets
that are still open are the listening ones, which the destructor closes, and the child's ends that failed
calls of `fork` left, which nothing closes before the process ends. -/
theorem shutdown (server : Server) (fs : FileSystem) (its : List Iteration) (it : Iteration)
    (hregisters : ∀ it' ∈ its ++ [it], it'.Registers) (hsignal : it.signal = true)
    (hevents : it.events.isSome = true)
    (hup : ((start server fs).serve (its ++ [it])).down = none) :
    ((start server fs).serve (its ++ [it])).clients = [] ∧
      (∀ fd, ((start server fs).serve (its ++ [it])).fdClientMap.find? fd = none) ∧
      ∀ fd, fd ∈ ((start server fs).serve (its ++ [it])).opened ↔
        ((start server fs).serve (its ++ [it])).isListening fd = true ∨
          fd ∈ ((start server fs).serve (its ++ [it])).orphans := by
  have htidy : Tidy ((start server fs).serve (its ++ [it])) := (tidy_start server fs).serve hregisters
  have hclients : ((start server fs).serve (its ++ [it])).clients = [] := by
    have hbefore : Tidy (Transition.run iterate (start server fs) its) :=
      (tidy_start server fs).serve fun it' hit' => hregisters it' (List.mem_append_left _ hit')
    rw [serve, Transition.run_append] at hup ⊢
    exact hbefore.clients_iterate
      (hregisters it (List.mem_append_right _ (List.mem_singleton.mpr rfl))) hsignal hevents hup
  refine ⟨hclients, fun fd => ?_, fun fd => ?_⟩
  · cases hfind : ((start server fs).serve (its ++ [it])).fdClientMap.find? fd with
    | none => rfl
    | some id =>
      obtain ⟨n, hn, -⟩ := htidy.owned fd id hfind
      rw [hclients] at hn
      cases hn
  · have hnobody : ¬ ∃ n ∈ ((start server fs).serve (its ++ [it])).clients, n.client.Holds fd := by
      rw [hclients]
      exact fun ⟨n, hn, _⟩ => absurd hn List.not_mem_nil
    rw [htidy.mem_opened, or_iff_left hnobody]

/-! ## Restarts -/

/-- `Server::~Server`: the sockets of `_serverBlocks` and of `_fdClientMap` are closed, and the epoll
instance.  A child's end that a failed `fork` left is in neither table. -/
def destroy (s : EventLoop) : EventLoop where
  server := { s.server with serverBlocks := OrderedMap.empty, mimetypes := OrderedMap.empty }
  fs := s.fs
  opened := s.opened.filter fun fd => ¬ (s.isListening fd || (s.fdClientMap.find? fd).isSome)
  interest := []
  orphans := s.orphans
  nextId := s.nextId
  log := s.log
  down := s.down

/-- `main` after an exception: the server is destroyed, and a new one is configured, beside the sockets that
the old one has left.  A failure of `configure` is such an exception; the destructor closes the sockets
that it has opened. -/
def restart (s : EventLoop) (sys : ListenSys) (config : Configuration) : EventLoop :=
  match configure (sys.beside s.destroy.opened) config with
  | .error fault => { s.destroy with down := some fault }
  | .ok (server, _) =>
    { start server s.fs with
      opened := (start server s.fs).opened ++ s.destroy.opened
      orphans := s.orphans
      nextId := s.nextId }

/-- Whether an exception ended the server, which `main` catches.  A null pointer is no exception, and ends
the process. -/
def hasThrown (s : EventLoop) : Bool := s.down.isSome && s.down ≠ some .nullPointer

/-- What happens in `main` once a server is configured: calls of `routine`, and exceptions after which it is
configured again. -/
inductive Life where
  | routine (it : Iteration)
  /-- `catch (std::exception &error)`, when there is one, and the configuration that is read again. -/
  | restart (sys : ListenSys) (config : Configuration)

def Life.Registers : Life → Prop
  | .routine it => it.Registers
  | .restart _ _ => True

def Life.Forks : Life → Prop
  | .routine it => it.Forks
  | .restart _ _ => True

/-- One round of the loop of `main`: a call of `routine`, or a new server if an exception has ended the old
one. -/
def live (s : EventLoop) : Life → EventLoop
  | .routine it => s.iterate it
  | .restart sys config => if s.hasThrown then s.restart sys config else s

section Restart

variable {s : EventLoop}

/-- The sockets that the server has the number of are closed, and no others. -/
theorem Tidy.opened_destroy (h : Tidy s) : s.destroy.opened.Perm s.orphans := by
  have hlost : s.orphans.filter (fun fd => ¬ (s.isListening fd || (s.fdClientMap.find? fd).isSome)) =
      s.orphans := by
    refine List.filter_eq_self.mpr fun fd horphan => ?_
    obtain ⟨hlistening, hunmapped⟩ := h.unknown fd horphan
    simp [hlistening, hunmapped]
  have hclosed : s.interest.filter (fun fd => ¬ (s.isListening fd || (s.fdClientMap.find? fd).isSome)) =
      [] := by
    refine List.filter_eq_nil_iff.mpr fun fd hmem hkept => ?_
    rw [decide_eq_true_eq, Bool.or_eq_true] at hkept
    exact hkept (h.interest fd hmem)
  have hfilter := h.watched.filter fun fd => ¬ (s.isListening fd || (s.fdClientMap.find? fd).isSome)
  rwa [List.filter_append, hlost, hclosed, List.append_nil] at hfilter

theorem Tidy.destroy (h : Tidy s) : Tidy s.destroy := by
  have hempty : ∀ fd, s.destroy.fdClientMap.find? fd = none := OrderedMap.find?_empty
  refine ⟨⟨?_, List.nodup_nil, ?_, ?_, ?_, ?_, ?_, ?_, ?_, ?_⟩, ?_, ?_, ?_⟩
  · exact fun fd hlistening => absurd hlistening Bool.false_ne_true
  · exact fun n hn => absurd hn List.not_mem_nil
  · exact fun n hn => absurd hn List.not_mem_nil
  · exact fun n hn => absurd hn List.not_mem_nil
  · exact fun n hn => absurd hn List.not_mem_nil
  · exact fun n hn => absurd hn List.not_mem_nil
  · intro fd id hfind
    rw [hempty] at hfind
    cases hfind
  · intro fd id hfind
    rw [hempty] at hfind
    cases hfind
  · exact fun fd hfd => absurd hfd List.not_mem_nil
  · exact h.opened_destroy.trans (List.Perm.of_eq (List.append_nil _).symm)
  · exact h.once.filter _
  · exact fun fd _ => ⟨rfl, hempty fd⟩

/-- The sockets of a server that is configured beside others are none of those. -/
theorem notMem_of_configure {sys : ListenSys} {config : Configuration} {server : Server}
    {binds : List (Fd × SockAddr)} {opened : List Fd}
    (h : configure (sys.beside opened) config = .ok (server, binds)) {fd : Fd}
    (hfd : (server.serverBlocks.find? fd).isSome = true) : fd ∉ opened := by
  unfold configure at h
  split_ifs at h
  cases hadd : Listening.addBlocks (sys.beside opened) config.blocks with
  | error fault =>
    rw [hadd] at h
    cases h
  | ok l =>
    rw [hadd] at h
    cases h
    have hbound : Listening.Bound (sys.beside opened) (Listening.pairs config.blocks) l :=
      (Listening.bound_nil _).addBlocks hadd
    have hmem := hbound.keys fd hfd
    rw [hbound.sockets] at hmem
    obtain ⟨n, hn, rfl⟩ := List.mem_map.mp hmem
    have hsucceeds := hbound.succeeds n (List.mem_range.mp hn)
    intro hopen
    rw [ListenSys.beside, Bool.or_eq_false_iff] at hsucceeds
    exact Bool.false_ne_true (hsucceeds.2.symm.trans (List.contains_iff_mem.mpr hopen))

theorem Tidy.restart (h : Tidy s) (sys : ListenSys) (config : Configuration) :
    Tidy (s.restart sys config) := by
  unfold EventLoop.restart
  cases hconfigure : configure (sys.beside s.destroy.opened) config with
  | error fault => exact h.destroy.congr rfl rfl rfl rfl rfl rfl rfl
  | ok r =>
    have hnew := tidy_start r.1 s.fs
    have hempty : ∀ fd, (start r.1 s.fs).fdClientMap.find? fd = none := OrderedMap.find?_empty
    have hother : ∀ fd ∈ s.destroy.opened, (start r.1 s.fs).isListening fd = false := fun fd hopen =>
      Bool.eq_false_iff.mpr fun hlistening => notMem_of_configure hconfigure hlistening hopen
    refine ⟨{ hnew with listening := ?_, lt_nextId := ?_, mapped := ?_ }, ?_, ?_, ?_⟩
    · exact fun fd hlistening => List.mem_append_left _ (hnew.listening fd hlistening)
    · exact fun n hn => absurd hn List.not_mem_nil
    · intro fd id hfind
      rw [show _ = none from hempty fd] at hfind
      cases hfind
    · exact List.perm_append_comm.trans (h.opened_destroy.append_right _)
    · refine List.nodup_append.mpr ⟨hnew.once, h.destroy.once, fun fd hfd fd' hopen heq => ?_⟩
      have hlistening := (hnew.interest fd hfd).resolve_right (by simp [hempty])
      rw [heq, hother fd' hopen] at hlistening
      cases hlistening
    · exact fun fd horphan => ⟨hother fd (h.opened_destroy.mem_iff.mpr horphan), hempty fd⟩

theorem Tidy.live (h : Tidy s) {e : Life} (hregisters : e.Registers) : Tidy (s.live e) := by
  cases e with
  | routine it =>
    exact h.reaches hregisters (iterate_turns s it)
  | restart sys config =>
    unfold EventLoop.live
    dsimp only
    split_ifs
    · exact h.restart sys config
    · exact h

theorem Tidy.orphans_live (h : Tidy s) {e : Life} (hregisters : e.Registers) (hforks : e.Forks) :
    (s.live e).orphans = s.orphans := by
  cases e with
  | routine it => exact h.orphans_reaches hregisters hforks (iterate_turns s it)
  | restart sys config =>
    unfold EventLoop.live EventLoop.restart
    dsimp only
    split_ifs
    · cases configure (sys.beside s.destroy.opened) config <;> rfl
    · rfl

end Restart

/-- Every socket that the kernel has open is accounted for, and so is every one that epoll watches. -/
structure Accounted (s : EventLoop) : Prop where
  once : s.opened.Nodup
  watchedOnce : s.interest.Nodup
  watched : ∀ fd, fd ∈ s.interest ↔ s.isListening fd = true ∨ ∃ n ∈ s.clients, n.client.Holds fd
  mem_opened : ∀ fd, fd ∈ s.opened ↔ fd ∈ s.interest ∨ fd ∈ s.orphans
  orphans : ∀ fd ∈ s.orphans, fd ∉ s.interest

theorem Tidy.accounted {s : EventLoop} (h : Tidy s) : Accounted s := by
  have honce : (s.orphans ++ s.interest).Nodup := h.watched.nodup_iff.mp h.once
  refine ⟨h.once, (List.nodup_append.mp honce).2.1, fun fd => h.mem_interest, fun fd => ?_, ?_⟩
  · rw [h.watched.mem_iff, List.mem_append, or_comm]
  · exact fun fd horphan hmem => (List.nodup_append.mp honce).2.2 fd horphan fd hmem rfl

/-- **No descriptor is lost but the child's ends of failed forks.**  In every run of `main`, over any calls
of `routine` and any restarts after exceptions, as long as the kernel registers with epoll what it is asked
to: epoll watches the listening sockets of the server and the sockets of the clients in its list, each
once; the sockets that are open are these and the child's ends that `_openCGI` left when `fork` failed,
and no number is open twice.  Where no `fork` fails, there are no such ends. -/
theorem accounted_live (server : Server) (fs : FileSystem) (es : List Life)
    (hregisters : ∀ e ∈ es, e.Registers) :
    Accounted (Transition.run live (start server fs) es) ∧
      ((∀ e ∈ es, e.Forks) → (Transition.run live (start server fs) es).orphans = []) := by
  constructor
  · exact (Transition.run_invariant (I := Tidy) (fun _ _ hs he => hs.live he) (tidy_start server fs)
      (Transition.along_of_mem hregisters _)).accounted
  · intro hforks
    have halong : Transition.Along live (fun _ e => e.Registers ∧ e.Forks) (start server fs) es :=
      Transition.along_of_mem (fun e he => ⟨hregisters e he, hforks e he⟩) _
    exact Transition.run_rel (R := fun a b : EventLoop => b.orphans = a.orphans) (fun _ => rfl)
      (fun _ _ _ hab hbc => hbc.trans hab) (fun _ _ hs he => Tidy.live hs he.1)
      (fun _ _ hs he => Tidy.orphans_live hs he.1 he.2) (tidy_start server fs) halong

/-! ## Three runs -/

theorem Iteration.registers_quiet (events : List EpollEvent) (accept : Option Nat) {input : Sys}
    (hinput : ∀ fd, input.epollCtl fd = true) (signal : Bool) :
    (Iteration.quiet events accept input signal).Registers where
  answers := by
    intro sys hsys
    obtain ⟨ev, -, rfl⟩ := List.mem_map.mp hsys
    exact ⟨rfl, hinput, fun _ => rfl, fun _ => rfl⟩
  timeouts := fun _ _ => rfl
  epollDel := fun _ => rfl

theorem registers_comesAndAsks : ∀ it ∈ comesAndAsks, it.Registers := by
  rw [comesAndAsks, List.forall_mem_cons, List.forall_mem_cons]
  exact ⟨Iteration.registers_quiet _ _ (fun _ => rfl) _,
    Iteration.registers_quiet _ _ (fun _ => rfl) _, fun it hit => absurd hit List.not_mem_nil⟩

set_option maxRecDepth 10000 in
theorem accounted_live_asks :
    (Transition.run live oneServer (comesAndAsks.map Life.routine)).opened = [4, 3] ∧
      Accounted (Transition.run live oneServer (comesAndAsks.map Life.routine)) := by
  refine ⟨by decide, (accounted_live _ _ _ fun e he => ?_).1⟩
  obtain ⟨it, hit, rfl⟩ := List.mem_map.mp he
  exact registers_comesAndAsks it hit

/-- A server with a location that runs `.php` files, for GET. -/
def gatewayServer : EventLoop :=
  start (.single 3 { locations := [{ Client.fileLocation with
      gcis := OrderedMap.empty.insert (bytes "php") (Path.ofString (bytes "/php")) }] } fun _ => 0)
    { table := fun p =>
        if p = bytes "/php" ∨ p = bytes "/r/a.php" then some { kind := .regular [] } else none }

def scriptRequest : Bytes := bytes "GET /a.php HTTP/1.1\r\nHost: h\r\n\r\n"

theorem scriptRequest_ne_nil : scriptRequest ≠ [] := by decide

theorem length_scriptRequest : scriptRequest.length ≤ reqBufferSize := by decide

/-- A client comes, asks for a script while no process can be made, and hangs up. -/
def comesToNoFork : List Iteration :=
  [.quiet [⟨3, false, true, false⟩] (some 4) (.quiet 0) false,
    .quiet [⟨4, false, true, false⟩] none
      { Sys.receiving scriptRequest scriptRequest_ne_nil length_scriptRequest with fork := none } false,
    .quiet [⟨4, true, false, false⟩] none (.quiet 0) false]

set_option maxRecDepth 10000 in
/-- The parent's end is closed with the client; the child's end stays open. -/
example :
    (Transition.run live gatewayServer (comesToNoFork.map Life.routine)).opened = [8, 3] ∧
      (Transition.run live gatewayServer (comesToNoFork.map Life.routine)).orphans = [8] ∧
      (Transition.run live gatewayServer (comesToNoFork.map Life.routine)).clients.map ClientNode.id = [] := by
  decide

set_option maxRecDepth 10000 in
/-- A second client comes, and the signal with it. -/
theorem shutdown_asks :
    let s := oneServer.serve
      (comesAndAsks ++ [.quiet [⟨3, false, true, false⟩] (some 5) (.quiet 0) true])
    s.clients = [] ∧ (∀ fd, s.fdClientMap.find? fd = none) ∧
      ∀ fd, fd ∈ s.opened ↔ s.isListening fd = true ∨ fd ∈ s.orphans := by
  refine shutdown _ _ comesAndAsks _ ?_ rfl rfl (by decide)
  intro it hit
  rcases List.mem_append.mp hit with hit | hit
  · exact registers_comesAndAsks it hit
  · rw [List.mem_singleton.mp hit]
    exact Iteration.registers_quiet _ _ (fun _ => rfl) _

end EventLoop
end Webserv
