import Webserv.EventBatch

/-!
# The loop of the server as a sequence of turns

`Server::routine` handles a batch, with `continue` and `break` between the parts of its body, and then
sweeps over the clients or, after a signal, removes them.  What it does to the table is a sequence of turns:
a connection is accepted, a client is called and removed unless it answers `REQ_CONTINUE`, a client is
removed, or the timeouts of all clients are checked.

* `Turn`, `turn`: the turns.
* `Iteration`, `iterate`: one call of `routine`.
* `Iteration.Offers`: the turns that a call may take in a state.
* `iterate_turns`, `serve_turns`: the loop is a run of turns, up to what is left of the batch and the
  record.

## Why turns

An invariant of the server has to be shown for the whole of `routine`, and its control flow is the difficult
part: a batch that is cut short, a descriptor that is looked up twice in one event, an error event that is
refused.  None of it matters to an invariant about the clients.  A turn is a piece of work that is the same
wherever in the loop it is done, and an invariant that every turn keeps is kept by the loop.  So the control
flow is unfolded once, here, and never again.

## Why up to the batch and the record

The two fields are the only ones that the loop changes between its turns, and the only ones that a turn may
change and no other turn reads.  `relabel` replaces them, and for every operation there is a lemma that it
does the same to a relabelled state (`turn_relabel`).  States that agree but for the two are compared by
`bare`.

## Why a turn is offered

That a run of turns leads to the same state would be of little use if the turns could be any.  An event of a
batch is an event of a descriptor that is in the map when it is handled, and a connection is accepted on a
listening socket; the answers of the kernel are those that the call of `routine` got.  `Offers` says so for
each turn, in the state in which it is taken, and a theorem about the loop may assume it of every turn.
-/

namespace Webserv
namespace EventLoop

/-! ## Turns -/

/-- A turn of the server, with the answers of the kernel to it. -/
inductive Turn where
  | accept (sys : AcceptSys) (socket : Fd)
  | input (sys : Sys) (epollDel : Fd → Bool) (fd : Fd)
  | output (sys : Sys) (epollDel : Fd → Bool) (fd : Fd)
  | remove (epollDel : Fd → Bool) (fd : Fd)
  | sweep (timeouts : Nat → Sys) (epollDel : Fd → Bool)

variable (s : EventLoop)

/-- A call into the client that a descriptor is mapped to, which is removed unless it answers
`REQ_CONTINUE`. -/
def serveFd (epollDel : Fd → Bool) (fd : Fd) (sys : Sys) (f : Sys → Client → Ret × Client) :
    EventLoop :=
  match s.fdClientMap.find? fd with
  | none => s
  | some id =>
    match s.call id sys f with
    | (.reqContinue, s) => s
    | (.throws _, s) => s
    | (_, s) => (s.removeConnection epollDel fd).2

/-- One turn.  After an exception that ends the server there are no more turns. -/
def turn (t : Turn) : EventLoop :=
  if s.down.isSome then s
  else
    match t with
    | .accept sys socket => s.addConnection sys socket
    | .input sys epollDel fd => s.serveFd epollDel fd sys (Client.handleIn fd)
    | .output sys epollDel fd => s.serveFd epollDel fd sys (Client.handleOut fd)
    | .remove epollDel fd => (s.removeConnection epollDel fd).2
    | .sweep timeouts epollDel => s.checkClientsTimeout timeouts epollDel

/-- The server after a list of turns. -/
abbrev turns (ts : List Turn) : EventLoop := Transition.run turn s ts

/-! ## Calls of `routine` -/

/-- What one call of `routine` gets from the kernel: the batch and the answers to its events, whether a
signal has come, and the answers for the sweep. -/
structure Iteration where
  /-- `epoll_wait`, and the answers to the events. -/
  events : Option (List EpollEvent)
  answers : List EventSys
  /-- Whether a signal has come when the batch is done with. -/
  signal : Bool
  timeouts : Nat → Sys
  epollDel : Fd → Bool

/-- One call of `routine`.  An exception leaves the loop of `main`. -/
def iterate (it : Iteration) : EventLoop :=
  if s.down.isSome then s
  else
    match it.events with
    | none => s
    | some events => s.routine events it.answers it.signal it.timeouts it.epollDel

/-- The server after a list of calls of `routine`. -/
abbrev serve (its : List Iteration) : EventLoop := Transition.run iterate s its

/-- The turns that a call of `routine` may take in a state, with the answers that it got. -/
inductive Iteration.Offers (it : Iteration) (s : EventLoop) : Turn → Prop
  | accept {sys : EventSys} {socket : Fd} : sys ∈ it.answers → s.isListening socket = true →
      it.Offers s (.accept sys.accept socket)
  | input {sys : EventSys} {fd : Fd} : sys ∈ it.answers → (s.fdClientMap.find? fd).isSome = true →
      it.Offers s (.input sys.input sys.epollDel fd)
  | output {sys : EventSys} {fd : Fd} : sys ∈ it.answers → (s.fdClientMap.find? fd).isSome = true →
      it.Offers s (.output sys.output sys.epollDel fd)
  | hangup {sys : EventSys} {fd : Fd} : sys ∈ it.answers → (s.fdClientMap.find? fd).isSome = true →
      it.Offers s (.remove sys.epollDel fd)
  | shutdown {n : ClientNode} : it.signal = true → n ∈ s.clients →
      it.Offers s (.remove it.epollDel n.client.fd)
  | sweep : it.signal = false → it.Offers s (.sweep it.timeouts it.epollDel)

/-! ## What no turn reads -/

/-- The state with another batch and another record, neither of which decides what the next turn does. -/
def relabel (events : List EpollEvent) (log : List Action) : EventLoop :=
  { s with events := events, log := log }

/-- The state without the batch and the record: what one call of `routine` leaves for the next. -/
def bare : EventLoop := s.relabel [] []

section Relabel

variable {s} {s' : EventLoop} (events : List EpollEvent) (log : List Action)

@[simp] theorem down_relabel : (s.relabel events log).down = s.down := rfl
@[simp] theorem clients_relabel : (s.relabel events log).clients = s.clients := rfl
@[simp] theorem fdClientMap_relabel : (s.relabel events log).fdClientMap = s.fdClientMap := rfl
@[simp] theorem client?_relabel (id : Nat) : (s.relabel events log).client? id = s.client? id := rfl

/-- A state is what it is but for the batch and the record. -/
theorem exists_relabel_of_bare (h : s.bare = s'.bare) : s' = s.relabel s'.events s'.log := by
  have heq := congrArg (fun x => x.relabel s'.events s'.log) h
  exact heq.symm

/-- A connection is accepted without a look at the batch or at the record; and so it is for the other
operations. -/
theorem addConnection_relabel (sys : AcceptSys) (socket : Fd) :
    (s.relabel events log).addConnection sys socket =
      (s.addConnection sys socket).relabel events log := by
  have hfresh : (s.relabel events log).fresh sys.accept = s.fresh sys.accept := rfl
  unfold addConnection
  rw [hfresh]
  cases s.fresh sys.accept with
  | none => rfl
  | some fd =>
    dsimp only
    split_ifs <;> rfl

theorem attachCGI_relabel (sys : Sys) (before after : Client) :
    (s.relabel events log).attachCGI sys before after =
      (s.attachCGI sys before after).relabel events log := by
  unfold attachCGI
  dsimp only
  split_ifs
  · rfl
  · unfold addCGIToClientMap EventLoop.findClient
    dsimp only [openFd, watch, EventLoop.leaveOpen, relabel]
    cases s.clients.find? fun n => n.client.fd = after.fd <;> rfl
  · rfl

/-- A call into a client, its answer included. -/
theorem call_relabel (id : Nat) (sys : Sys) (f : Sys → Client → Ret × Client) :
    (s.relabel events log).call id sys f =
      ((s.call id sys f).1, (s.call id sys f).2.relabel events log) := by
  unfold call
  rw [client?_relabel]
  cases s.client? id with
  | none => rfl
  | some c =>
    dsimp only
    have hanswers : (s.relabel events log).answers sys c = s.answers sys c := rfl
    have hfs : (s.relabel events log).fs = s.fs := rfl
    rw [hanswers, hfs]
    generalize f (s.answers sys c) { c with context := c.context.setFs s.fs } = r
    have hset : ({ (s.relabel events log).setClient id r.2 with fs := r.2.context.world.fs } :
        EventLoop) = ({ s.setClient id r.2 with fs := r.2.context.world.fs } :
          EventLoop).relabel events log := rfl
    rw [hset, attachCGI_relabel]
    obtain ⟨ret, c'⟩ := r
    cases ret <;> rfl

theorem dropFd_relabel (epollDel : Fd → Bool) (fd : Fd) :
    (s.relabel events log).dropFd epollDel fd =
      (s.dropFd epollDel fd).map fun s => s.relabel events log := by
  unfold dropFd
  split_ifs <;> rfl

/-- A removal reads the batch to take events out of it, and adds to the record. -/
theorem dropClient_relabel (epollDel : Fd → Bool) (id : Nat) (c : Client) :
    (s.relabel events log).dropClient epollDel id c = (s.dropClient epollDel id c).map fun s =>
      s.relabel (events.map fun ev => neutralise c.context.cgiSocket (neutralise c.fd ev))
        (log ++ [.remove id]) := by
  unfold dropClient
  rw [dropFd_relabel]
  cases s.dropFd epollDel c.fd with
  | error fault => rfl
  | ok s₁ =>
    dsimp only [Except.map, bind, Except.bind]
    rw [dropFd_relabel]
    cases s₁.dropFd epollDel c.context.cgiSocket <;> rfl

theorem removeConnection_relabel (epollDel : Fd → Bool) (fd : Fd) :
    ∃ events' log', (s.relabel events log).removeConnection epollDel fd =
      ((s.removeConnection epollDel fd).1,
        (s.removeConnection epollDel fd).2.relabel events' log') := by
  unfold removeConnection
  rw [fdClientMap_relabel]
  simp only [client?_relabel]
  cases (s.fdClientMap.find? fd).bind fun id => (s.client? id).map fun c => (id, c) with
  | none => exact ⟨events, log, rfl⟩
  | some n =>
    dsimp only
    split_ifs
    · exact ⟨events, log, rfl⟩
    · rw [dropClient_relabel]
      cases s.dropClient epollDel n.1 n.2 with
      | error fault => exact ⟨events, log, rfl⟩
      | ok s' => exact ⟨_, _, rfl⟩

/-- A removal adds to the record and takes events out of the batch, so that these two may differ afterwards.
-/
theorem serveFd_relabel (epollDel : Fd → Bool) (fd : Fd) (sys : Sys)
    (f : Sys → Client → Ret × Client) :
    ∃ events' log', (s.relabel events log).serveFd epollDel fd sys f =
      (s.serveFd epollDel fd sys f).relabel events' log' := by
  unfold serveFd
  rw [fdClientMap_relabel]
  cases s.fdClientMap.find? fd with
  | none => exact ⟨events, log, rfl⟩
  | some id =>
    dsimp only
    rw [call_relabel]
    obtain ⟨ret, s'⟩ := s.call id sys f
    obtain ⟨events', log', hremove⟩ := removeConnection_relabel (s := s') events log epollDel fd
    cases ret with
    | reqContinue => exact ⟨events, log, rfl⟩
    | throws fault => exact ⟨events, log, rfl⟩
    | reqDone | reqError =>
      dsimp only
      rw [hremove]
      exact ⟨events', log', rfl⟩

theorem checkClient_relabel (sys : Sys) (epollDel : Fd → Bool) (id : Nat) :
    ∃ events' log', (s.relabel events log).checkClient sys epollDel id =
      (s.checkClient sys epollDel id).relabel events' log' := by
  unfold checkClient
  rw [down_relabel]
  split_ifs
  · exact ⟨events, log, rfl⟩
  · rw [call_relabel]
    obtain ⟨ret, s'⟩ := s.call id sys fun sys c => c.timeoutCheck sys
    cases ret with
    | reqContinue => exact ⟨events, log, rfl⟩
    | throws fault => exact ⟨events, log, rfl⟩
    | reqDone | reqError =>
      dsimp only
      rw [client?_relabel]
      cases s'.client? id with
      | none => exact ⟨events, log, rfl⟩
      | some c =>
        obtain ⟨events', log', hremove⟩ :=
          removeConnection_relabel (s := s') events log epollDel c.fd
        dsimp only
        rw [hremove]
        exact ⟨events', log', rfl⟩

theorem checkClientsTimeout_relabel (timeouts : Nat → Sys) (epollDel : Fd → Bool) :
    ∃ events' log', (s.relabel events log).checkClientsTimeout timeouts epollDel =
      (s.checkClientsTimeout timeouts epollDel).relabel events' log' := by
  unfold checkClientsTimeout
  rw [clients_relabel]
  generalize s.clients.map ClientNode.id = ids
  induction ids generalizing s events log with
  | nil => exact ⟨events, log, rfl⟩
  | cons id ids ih =>
    obtain ⟨events', log', hcheck⟩ :=
      checkClient_relabel (s := s) events log (timeouts id) epollDel id
    rw [List.foldl_cons, List.foldl_cons, hcheck]
    exact ih events' log'

/-- One turn.  The lists that only record are never read, so that two servers that differ in them behave
alike. -/
theorem turn_relabel (t : Turn) :
    ∃ events' log', (s.relabel events log).turn t = (s.turn t).relabel events' log' := by
  unfold turn
  rw [down_relabel]
  split_ifs
  · exact ⟨events, log, rfl⟩
  · cases t with
    | accept sys socket => exact ⟨events, log, addConnection_relabel events log sys socket⟩
    | input sys epollDel fd => exact serveFd_relabel events log epollDel fd sys _
    | output sys epollDel fd => exact serveFd_relabel events log epollDel fd sys _
    | remove epollDel fd =>
      obtain ⟨events', log', hremove⟩ := removeConnection_relabel (s := s) events log epollDel fd
      exact ⟨events', log', congrArg Prod.snd hremove⟩
    | sweep timeouts epollDel => exact checkClientsTimeout_relabel events log timeouts epollDel

/-- Turns from states that differ in the batch and the record lead to such states. -/
theorem bare_turns (ts : List Turn) (h : s.bare = s'.bare) :
    (s.turns ts).bare = (s'.turns ts).bare := by
  induction ts generalizing s s' with
  | nil => exact h
  | cons t ts ih =>
    refine ih ?_
    rw [exists_relabel_of_bare h]
    obtain ⟨events', log', hturn⟩ := turn_relabel (s := s) s'.events s'.log t
    rw [hturn]
    rfl

end Relabel

/-! ## States that turns lead to -/

/-- The turns of a call of `routine` lead from a state to another one, up to the batch and the record. -/
def Reaches (it : Iteration) (s s' : EventLoop) : Prop :=
  ∃ ts, Transition.Along turn it.Offers s ts ∧ (s.turns ts).bare = s'.bare

section Reaches

variable {it : Iteration} {s} {s₁ s₂ s' : EventLoop}

theorem Iteration.Offers.of_bare (h : s.bare = s'.bare) {t : Turn} (hoffers : it.Offers s t) :
    it.Offers s' t := by
  rw [exists_relabel_of_bare h]
  cases hoffers with
  | accept hsys hlistening => exact .accept hsys hlistening
  | input hsys hmapped => exact .input hsys hmapped
  | output hsys hmapped => exact .output hsys hmapped
  | hangup hsys hmapped => exact .hangup hsys hmapped
  | shutdown hsignal hn => exact .shutdown hsignal hn
  | sweep hsignal => exact .sweep hsignal

theorem along_of_bare (h : s.bare = s'.bare) {ts : List Turn}
    (hall : Transition.Along turn it.Offers s ts) : Transition.Along turn it.Offers s' ts := by
  induction ts generalizing s s' with
  | nil => trivial
  | cons t ts ih => exact ⟨hall.1.of_bare h, ih (bare_turns [t] h) hall.2⟩

theorem Reaches.of_bare (h : s.bare = s'.bare) : Reaches it s s' := ⟨[], trivial, h⟩

/-- No turn at all. -/
theorem Reaches.refl (s : EventLoop) : Reaches it s s := .of_bare rfl

/-- The turns of one part of the body, and those of the next. -/
theorem Reaches.trans (h₁ : Reaches it s s₁) (h₂ : Reaches it s₁ s₂) : Reaches it s s₂ := by
  obtain ⟨ts₁, hall₁, heq₁⟩ := h₁
  obtain ⟨ts₂, hall₂, heq₂⟩ := h₂
  refine ⟨ts₁ ++ ts₂, Transition.along_append.mpr ⟨hall₁, along_of_bare heq₁.symm hall₂⟩, ?_⟩
  rw [turns, Transition.run_append]
  exact (bare_turns ts₂ heq₁).trans heq₂

/-- The end of a turn, up to the batch and the record. -/
theorem Reaches.of_turn {t : Turn} (ht : it.Offers s t) (h : (s.turn t).bare = s'.bare) :
    Reaches it s s' :=
  ⟨[t], ⟨ht, trivial⟩, h⟩

/-- What a turn is while the server is up. -/
theorem turn_of_up (h : s.down = none) (t : Turn) : s.turn t = match t with
    | .accept sys socket => s.addConnection sys socket
    | .input sys epollDel fd => s.serveFd epollDel fd sys (Client.handleIn fd)
    | .output sys epollDel fd => s.serveFd epollDel fd sys (Client.handleOut fd)
    | .remove epollDel fd => (s.removeConnection epollDel fd).2
    | .sweep timeouts epollDel => s.checkClientsTimeout timeouts epollDel := by
  unfold turn
  rw [if_neg (by rw [h]; exact Bool.false_ne_true)]

/-- A call through the map is the last thing in the turn, unless the client is removed after it. -/
theorem serveFd_cases (epollDel : Fd → Bool) (sys : Sys) (f : Sys → Client → Ret × Client) {fd : Fd}
    {id : Nat} (hfind : s.fdClientMap.find? fd = some id) :
    ((s.call id sys f).1 = .reqContinue ∨ ∃ fault, (s.call id sys f).1 = .throws fault) ∧
        s.serveFd epollDel fd sys f = (s.call id sys f).2 ∨
      (∀ fault, (s.call id sys f).1 ≠ .throws fault) ∧
        s.serveFd epollDel fd sys f = ((s.call id sys f).2.removeConnection epollDel fd).2 := by
  unfold serveFd
  rw [hfind]
  dsimp only
  generalize s.call id sys f = r
  obtain ⟨ret, s'⟩ := r
  cases ret with
  | reqContinue => exact Or.inl ⟨Or.inl rfl, rfl⟩
  | throws fault => exact Or.inl ⟨Or.inr ⟨fault, rfl⟩, rfl⟩
  | reqDone | reqError => exact Or.inr ⟨fun _ heq => Ret.noConfusion heq, rfl⟩

/-- The same for a client of the sweep, which is removed through its own socket. -/
theorem checkClient_cases (epollDel : Fd → Bool) (sys : Sys) (id : Nat) (hup : s.down = none) :
    ((s.call id sys fun sys c => c.timeoutCheck sys).1 = .reqContinue ∨
        ∃ fault, (s.call id sys fun sys c => c.timeoutCheck sys).1 = .throws fault) ∧
          s.checkClient sys epollDel id = (s.call id sys fun sys c => c.timeoutCheck sys).2 ∨
      (∀ fault, (s.call id sys fun sys c => c.timeoutCheck sys).1 ≠ .throws fault) ∧
        s.checkClient sys epollDel id =
          match (s.call id sys fun sys c => c.timeoutCheck sys).2.client? id with
          | none =>
            { (s.call id sys fun sys c => c.timeoutCheck sys).2 with down := some .nullPointer }
          | some c => ((s.call id sys fun sys c => c.timeoutCheck sys).2.removeConnection epollDel
              c.fd).2 := by
  unfold checkClient
  rw [if_neg (by rw [hup]; exact Bool.false_ne_true)]
  generalize (s.call id sys fun sys c => c.timeoutCheck sys) = r
  obtain ⟨ret, s'⟩ := r
  cases ret with
  | reqContinue => exact Or.inl ⟨Or.inl rfl, rfl⟩
  | throws fault => exact Or.inl ⟨Or.inr ⟨fault, rfl⟩, rfl⟩
  | reqDone | reqError => exact Or.inr ⟨fun _ heq => Ret.noConfusion heq, rfl⟩

end Reaches

/-! ## What a turn keeps -/

section Server

variable {s}

/-- A connection does not change the configuration; and no other operation does. -/
theorem server_addConnection (sys : AcceptSys) (socket : Fd) :
    (s.addConnection sys socket).server = s.server := by
  unfold addConnection
  cases s.fresh sys.accept with
  | none => rfl
  | some fd =>
    dsimp only
    split_ifs <;> rfl

/-- A new CGI concerns the descriptors only: neither the clients nor the files change. -/
theorem attachCGI_eq (s : EventLoop) (sys : Sys) (before after : Client) :
    ∃ opened interest orphans map, s.attachCGI sys before after =
      { s with opened := opened, interest := interest, orphans := orphans, fdClientMap := map } := by
  unfold attachCGI addCGIToClientMap
  dsimp only
  split_ifs
  · exact ⟨_, _, _, _, rfl⟩
  · cases (((s.leaveOpen after.context.world.childEnd).openFd after.context.cgiSocket).watch
      after.context.cgiSocket).findClient after with
    | none => exact ⟨_, _, _, _, rfl⟩
    | some n => exact ⟨_, _, _, _, rfl⟩
  · exact ⟨_, _, _, _, rfl⟩

theorem server_call (id : Nat) (sys : Sys) (f : Sys → Client → Ret × Client) :
    (s.call id sys f).2.server = s.server := by
  unfold call
  cases s.client? id with
  | none => rfl
  | some c =>
    dsimp only
    generalize f (s.answers sys c) { c with context := c.context.setFs s.fs } = r
    obtain ⟨opened, interest, orphans, map, hattach⟩ := attachCGI_eq
      ({ s.setClient id r.2 with fs := r.2.context.world.fs } : EventLoop) (s.answers sys c) c r.2
    rw [hattach]
    obtain ⟨ret, c'⟩ := r
    cases ret <;> rfl

theorem kept_dropFd {s' : EventLoop} {epollDel : Fd → Bool} {fd : Fd}
    (h : s.dropFd epollDel fd = .ok s') : s'.server = s.server ∧ s'.fs = s.fs := by
  rcases dropFd_ok h with ⟨-, rfl⟩ | ⟨-, rfl⟩ <;> exact ⟨rfl, rfl⟩

/-- A removal touches neither the configuration nor the files. -/
theorem kept_removeConnection (epollDel : Fd → Bool) (fd : Fd) :
    (s.removeConnection epollDel fd).2.server = s.server ∧
      (s.removeConnection epollDel fd).2.fs = s.fs := by
  unfold removeConnection
  cases (s.fdClientMap.find? fd).bind fun id => (s.client? id).map fun c => (id, c) with
  | none => exact ⟨rfl, rfl⟩
  | some n =>
    dsimp only
    split_ifs
    · exact ⟨rfl, rfl⟩
    · unfold dropClient
      cases hfirst : s.dropFd epollDel n.2.fd with
      | error fault => exact ⟨rfl, rfl⟩
      | ok s₁ =>
        dsimp only [bind, Except.bind]
        cases hsecond : s₁.dropFd epollDel n.2.context.cgiSocket with
        | error fault => exact ⟨rfl, rfl⟩
        | ok s₂ =>
          obtain ⟨hserver₁, hfs₁⟩ := kept_dropFd hfirst
          obtain ⟨hserver₂, hfs₂⟩ := kept_dropFd hsecond
          exact ⟨hserver₂.trans hserver₁, hfs₂.trans hfs₁⟩

theorem server_removeConnection (epollDel : Fd → Bool) (fd : Fd) :
    (s.removeConnection epollDel fd).2.server = s.server := (kept_removeConnection epollDel fd).1

theorem server_serveFd (epollDel : Fd → Bool) (fd : Fd) (sys : Sys)
    (f : Sys → Client → Ret × Client) : (s.serveFd epollDel fd sys f).server = s.server := by
  unfold serveFd
  cases s.fdClientMap.find? fd with
  | none => rfl
  | some id =>
    have hcall := server_call (s := s) id sys f
    dsimp only
    generalize s.call id sys f = r at hcall ⊢
    obtain ⟨ret, s'⟩ := r
    cases ret with
    | reqContinue | throws => exact hcall
    | reqDone | reqError => exact (server_removeConnection epollDel fd).trans hcall

theorem server_checkClient (sys : Sys) (epollDel : Fd → Bool) (id : Nat) :
    (s.checkClient sys epollDel id).server = s.server := by
  cases hdown : s.down with
  | some fault =>
    unfold checkClient
    rw [hdown]
    rfl
  | none =>
    have hcall := server_call (s := s) id sys fun sys c => c.timeoutCheck sys
    rcases checkClient_cases epollDel sys id hdown with ⟨-, heq⟩ | ⟨-, heq⟩ <;> rw [heq]
    · exact hcall
    · cases (s.call id sys fun sys c => c.timeoutCheck sys).2.client? id with
      | none => exact hcall
      | some c => exact (server_removeConnection epollDel c.fd).trans hcall

theorem server_checkClientsTimeout (timeouts : Nat → Sys) (epollDel : Fd → Bool) :
    (s.checkClientsTimeout timeouts epollDel).server = s.server := by
  unfold checkClientsTimeout
  generalize s.clients.map ClientNode.id = ids
  induction ids generalizing s with
  | nil => rfl
  | cons id ids ih => exact ih.trans (server_checkClient (timeouts id) epollDel id)

/-- The configuration stays as it is. -/
theorem server_turn (t : Turn) : (s.turn t).server = s.server := by
  cases hdown : s.down with
  | some fault =>
    unfold turn
    rw [hdown]
    rfl
  | none =>
    rw [turn_of_up hdown]
    cases t with
    | accept sys socket => exact server_addConnection sys socket
    | input sys epollDel fd => exact server_serveFd epollDel fd sys _
    | output sys epollDel fd => exact server_serveFd epollDel fd sys _
    | remove epollDel fd => exact server_removeConnection epollDel fd
    | sweep timeouts epollDel => exact server_checkClientsTimeout timeouts epollDel

theorem server_turns (ts : List Turn) : (s.turns ts).server = s.server :=
  Transition.run_invariant (I := fun s' => s'.server = s.server) (C := fun _ _ => True)
    (fun _ t h _ => (server_turn t).trans h) rfl (Transition.along_of_forall (fun _ _ => trivial) ts s)

/-- A call that is not left by an exception. -/
theorem down_call_of_continue {id : Nat} {sys : Sys} {f : Sys → Client → Ret × Client}
    (h : (s.call id sys f).1 = .reqContinue) : (s.call id sys f).2.down = s.down := by
  unfold call at h ⊢
  cases hclient : s.client? id with
  | none =>
    rw [hclient] at h
    cases h
  | some c =>
    rw [hclient] at h
    dsimp only at h ⊢
    generalize f (s.answers sys c) { c with context := c.context.setFs s.fs } = r at h ⊢
    obtain ⟨opened, interest, orphans, map, hattach⟩ := attachCGI_eq
      ({ s.setClient id r.2 with fs := r.2.context.world.fs } : EventLoop) (s.answers sys c) c r.2
    rw [hattach] at h ⊢
    obtain ⟨ret, c'⟩ := r
    cases ret with
    | reqContinue => rfl
    | reqDone | reqError | throws => cases h

end Server

/-! ## The loop -/

/-- A part of the body of the loop is some turns.  The server is up when the body goes on. -/
def Stage.Follows (it : Iteration) (s : EventLoop) : Stage → Prop
  | .ok s' => Reaches it s s' ∧ s'.down = none
  | .error (goesOn, s') => Reaches it s s' ∧ (goesOn = true → s'.down = none)

section Loop

variable {it : Iteration} {s} {s₀ : EventLoop}

theorem Stage.Follows.bind {r : Stage} (h : Stage.Follows it s r) {f : EventLoop → Stage}
    (hf : ∀ s', Reaches it s s' → s'.down = none → Stage.Follows it s (f s')) :
    Stage.Follows it s (r >>= f) := by
  cases r with
  | ok s' => exact hf s' h.1 h.2
  | error r => exact h

theorem Reaches.handleHangup (h : Reaches it s₀ s) (hup : s.down = none) {sys : EventSys}
    (hsys : sys ∈ it.answers) {ev : EpollEvent} (hmapped : (s.fdClientMap.find? ev.fd).isSome = true) :
    Stage.Follows it s₀ (s.handleHangup sys ev) := by
  unfold EventLoop.handleHangup
  split_ifs with hhangup
  · have hreaches : Reaches it s₀ (s.removeConnection sys.epollDel ev.fd).2 :=
      h.trans (.of_turn (.hangup hsys hmapped) (by rw [turn_of_up hup]))
    generalize s.removeConnection sys.epollDel ev.fd = r at hreaches ⊢
    obtain ⟨removed, s'⟩ := r
    dsimp only
    by_cases hdown : s'.down.isSome = true
    · rw [if_pos (Or.inr hdown)]
      refine ⟨hreaches, fun hgoes => ?_⟩
      rw [Option.isNone_iff_eq_none.mp hgoes] at hdown
      cases hdown
    · have hnone := Option.not_isSome_iff_eq_none.mp hdown
      by_cases hremoved : removed = true
      · rw [if_pos (Or.inl hremoved)]
        exact ⟨hreaches, fun _ => hnone⟩
      · rw [if_neg (fun hor => hor.elim hremoved hdown)]
        exact ⟨hreaches, hnone⟩
  · exact ⟨h, hup⟩

theorem Reaches.handleReady (h : Reaches it s₀ s) (hup : s.down = none) {epollDel : Fd → Bool}
    {fd : Fd} {ready : Bool} {action : Nat → Action} {sys : Sys} {f : Sys → Client → Ret × Client}
    {t : Turn} (hoffers : (s.fdClientMap.find? fd).isSome = true → it.Offers s t)
    (ht : s.turn t = s.serveFd epollDel fd sys f) :
    Stage.Follows it s₀ (s.handleReady epollDel fd ready action sys f) := by
  unfold EventLoop.handleReady
  cases hfind : s.fdClientMap.find? fd with
  | none => exact ⟨h, fun _ => hup⟩
  | some id =>
    have ht' := hoffers (by rw [hfind]; rfl)
    dsimp only
    split_ifs with hready
    · have hcall : ({ s with log := s.log ++ [action id] } : EventLoop).call id sys f = _ :=
        call_relabel (s := s) s.events (s.log ++ [action id]) id sys f
      have hkeeps := @down_call_of_continue s id sys f
      unfold serveFd at ht
      rw [hfind] at ht
      dsimp only at ht
      rw [hcall]
      generalize s.call id sys f = r at ht hkeeps ⊢
      obtain ⟨ret, s'⟩ := r
      cases ret with
      | reqContinue =>
        exact ⟨h.trans (.of_turn ht' (by rw [ht]; rfl)), (hkeeps rfl).trans hup⟩
      | throws fault => exact ⟨h.trans (.of_turn ht' (by rw [ht]; rfl)), nofun⟩
      | reqDone | reqError =>
        obtain ⟨events, log, hremove⟩ :=
          removeConnection_relabel (s := s') s.events (s.log ++ [action id]) epollDel fd
        refine ⟨h.trans (.of_turn ht' ?_), nofun⟩
        rw [ht]
        exact (congrArg (fun r => r.2.bare) hremove).symm
    · exact ⟨h, hup⟩

theorem Reaches.handleEvent (h : Reaches it s₀ s) (hup : s.down = none) {sys : EventSys}
    (hsys : sys ∈ it.answers) (ev : EpollEvent) : Reaches it s₀ (s.handleEvent sys ev).2 ∧
      ((s.handleEvent sys ev).1 = true → (s.handleEvent sys ev).2.down = none) := by
  unfold EventLoop.handleEvent
  split_ifs with hlistening hnone
  · refine ⟨h.trans (.of_turn (.accept hsys hlistening) (by rw [turn_of_up hup])), fun _ => ?_⟩
    show (s.addConnection sys.accept ev.fd).down = none
    unfold addConnection
    cases s.fresh sys.accept.accept with
    | none => exact hup
    | some fd =>
      dsimp only
      split_ifs <;> exact hup
  · exact ⟨h, fun _ => hup⟩
  · have hmapped : (s.fdClientMap.find? ev.fd).isSome = true := by
      rw [← Option.not_isNone, Bool.eq_false_iff.mpr hnone]
      rfl
    have hclient : Stage.Follows it s₀ (s.handleClient sys ev) := by
      unfold handleClient
      refine (h.handleHangup hup hsys hmapped).bind fun s₁ h₁ hup₁ => ?_
      refine (h₁.handleReady hup₁ (.input hsys) (turn_of_up hup₁ _)).bind fun s₂ h₂ hup₂ => ?_
      exact h₂.handleReady hup₂ (.output hsys) (turn_of_up hup₂ _)
    cases hstage : s.handleClient sys ev with
    | ok s' =>
      rw [hstage] at hclient
      exact ⟨hclient.1, fun _ => hclient.2⟩
    | error r =>
      rw [hstage] at hclient
      exact hclient

theorem Reaches.handleEvents : ∀ {answers : List EventSys} {s : EventLoop}, Reaches it s₀ s →
    s.down = none → (∀ sys ∈ answers, sys ∈ it.answers) → Reaches it s₀ (handleEvents answers s)
  | [], _, h, _, _ => h
  | sys :: answers, s, h, hup, hsys => by
    unfold EventLoop.handleEvents
    cases hevents : s.events with
    | nil => exact h
    | cons ev events =>
      have hrest : Reaches it s₀ { s with events := events } := h.trans (.of_bare rfl)
      obtain ⟨hreaches, hgoes⟩ := hrest.handleEvent hup (hsys sys (List.mem_cons_self ..)) ev
      dsimp only
      generalize ({ s with events := events } : EventLoop).handleEvent sys ev = r
        at hreaches hgoes ⊢
      obtain ⟨goesOn, s'⟩ := r
      cases goesOn with
      | true =>
        exact Reaches.handleEvents hreaches (hgoes rfl)
          fun sys' hmem => hsys sys' (List.mem_cons_of_mem _ hmem)
      | false => exact hreaches

theorem Reaches.removeAll (hsignal : it.signal = true) :
    ∀ (n : Nat) {s : EventLoop}, Reaches it s₀ s → s.down = none →
      Reaches it s₀ (removeAll it.epollDel n s)
  | 0, _, h, _ => h
  | n + 1, s, h, hup => by
    unfold EventLoop.removeAll
    cases hclients : s.clients with
    | nil => exact h
    | cons node rest =>
      have hoffers : it.Offers s (.remove it.epollDel node.client.fd) :=
        .shutdown hsignal (hclients ▸ List.mem_cons_self ..)
      have hnext : Reaches it s₀ (s.removeConnection it.epollDel node.client.fd).2 :=
        h.trans (.of_turn hoffers (by rw [turn_of_up hup]))
      dsimp only
      split_ifs with hdown
      · exact hnext
      · exact Reaches.removeAll hsignal n hnext (Option.not_isSome_iff_eq_none.mp hdown)

end Loop

/-- One call of `routine` is a sequence of turns, the accepted events and the sweep alike, so that what
turns preserve an iteration does. -/
theorem iterate_turns (s : EventLoop) (it : Iteration) : Reaches it s (s.iterate it) := by
  unfold iterate
  split_ifs with hdown
  · exact .refl s
  · have hup := Option.not_isSome_iff_eq_none.mp hdown
    cases hevents : it.events with
    | none => exact .refl s
    | some events =>
      have hbatch : Reaches it s (handleEvents it.answers { s with events := events }) :=
        Reaches.handleEvents (.of_bare rfl) hup fun _ hsys => hsys
      show Reaches it s (s.routine events it.answers it.signal it.timeouts it.epollDel)
      unfold routine
      dsimp only
      split_ifs with hfault hsignal
      · exact hbatch
      · exact hbatch.removeAll hsignal _ (Option.not_isSome_iff_eq_none.mp hfault)
      · exact hbatch.trans (.of_turn (.sweep (Bool.eq_false_iff.mpr hsignal))
          (by rw [turn_of_up (Option.not_isSome_iff_eq_none.mp hfault)]))

/-- The turns that some calls of `routine` may take in a state. -/
def Offered (its : List Iteration) (s : EventLoop) (t : Turn) : Prop := ∃ it ∈ its, it.Offers s t

/-- **The loop is a run of turns.**  Whatever `epoll_wait` reports and the kernel answers, what any
number of calls of `routine` do to the server, but for the rest of the batch and the record, is what
some turns do.  Each of them is one that one of these calls may take in the state it is taken in. -/
theorem serve_turns (s : EventLoop) (its : List Iteration) :
    ∃ ts, Transition.Along turn (Offered its) s ts ∧ (s.turns ts).bare = (s.serve its).bare := by
  induction its generalizing s with
  | nil => exact ⟨[], trivial, rfl⟩
  | cons it its ih =>
    obtain ⟨ts₁, hall₁, heq₁⟩ := iterate_turns s it
    obtain ⟨ts₂, hall₂, heq₂⟩ := ih (s.iterate it)
    have hfirst : Transition.Along turn (Offered (it :: its)) s ts₁ :=
      hall₁.mono fun _ _ hoffers => ⟨it, List.mem_cons_self .., hoffers⟩
    have hrest : Transition.Along turn (Offered (it :: its)) (s.turns ts₁) ts₂ := by
      have hall : ∀ (ts : List Turn) {s s' : EventLoop}, s'.bare = s.bare →
          Transition.Along turn (Offered its) s' ts →
          Transition.Along turn (Offered (it :: its)) s ts := by
        intro ts
        induction ts with
        | nil => exact fun _ _ => trivial
        | cons t ts ih =>
          rintro s s' heq ⟨⟨it', hit', hoffers⟩, hrest⟩
          exact ⟨⟨it', List.mem_cons_of_mem _ hit', hoffers.of_bare heq⟩,
            ih (bare_turns [t] heq) hrest⟩
      exact hall ts₂ heq₁.symm hall₂
    refine ⟨ts₁ ++ ts₂, Transition.along_append.mpr ⟨hfirst, hrest⟩, ?_⟩
    rw [turns, Transition.run_append]
    exact (bare_turns ts₂ heq₁).trans heq₂

/-! ## A run -/

/-- A call of `routine` in which the kernel does what it is asked to. -/
def Iteration.quiet (events : List EpollEvent) (accept : Option Nat) (input : Sys) (signal : Bool) :
    Iteration where
  events := some events
  answers := events.map fun _ => ⟨⟨accept, true, true, 0⟩, input, .quiet 0, fun _ => true⟩
  signal := signal
  timeouts := fun _ => .quiet 0
  epollDel := fun _ => true

theorem fileRequest_ne_nil : Client.fileRequest ≠ [] := by decide

theorem length_fileRequest : Client.fileRequest.length ≤ reqBufferSize := by decide

/-- A client comes, and its request is read. -/
def comesAndAsks : List Iteration :=
  [.quiet [⟨3, false, true, false⟩] (some 4) (.quiet 0) false,
    .quiet [⟨4, false, true, false⟩] none
      (.receiving Client.fileRequest fileRequest_ne_nil length_fileRequest) false]

end EventLoop
end Webserv
