import Webserv.ConnectionTable
import Webserv.StickyErrors

/-!
# A batch of events

While a batch is handled, connections come and go, and the number of a closed descriptor may be given out
again.  A removal takes the events of both descriptors of the client out of the rest of the batch, so that
every event that is left is for a descriptor that has belonged to one client all the time.

* `Keeps`: what a new connection or a call into a client does to the table.
* `Tracks`: what holds between two events of the batch.
* `handleEvents_faithful`: every event reaches the client that owned its descriptor at the start.

## The danger

`epoll_wait` reports events by descriptor.  Between the report and the handling, an earlier event of the
same batch may close the descriptor, and a connection that is accepted after that may get its number.  The
later event is then about the old owner and would reach the new one.  The program guards against it by going
over the rest of the batch in `_removeConnection`, and by looking the descriptor up again before each of the
two calls of one event.

## What is tracked

The state at the start of the batch is fixed, and a descriptor of the rest of the batch is compared with it
(`Still`): its event was taken out, or it is a listening socket, or it leads to the client it led to at the
start.  The third case needs that no operation in between gives an entry of the map away.  A new connection
gets a number that was not open, and the descriptors of the map are open; a call adds an entry for its CGI
at most; a removal erases entries, and neutralises the events of exactly those.  The record of the batch is
what the theorem speaks of, and `Faithful` is the statement about it.

## What is assumed

The state is sound, the events are for descriptors that epoll watches, and an accepted socket can be added
to epoll.  Nothing is assumed of the numbers that the kernel hands out, except that they are not open.
-/

namespace Webserv
namespace EventLoop

/-! ## Ownership -/

/-- The descriptor is one of the two sockets of the client. -/
def Owns (s : EventLoop) (fd : Fd) (id : Nat) : Prop :=
  ∃ n ∈ s.clients, n.id = id ∧ (fd = n.client.fd ∨ fd = n.client.context.cgiSocket)

/-- The client that a descriptor is mapped to is the only one that owns it. -/
theorem Sound.owns {s : EventLoop} (h : Sound s) {fd : Fd} {id : Nat}
    (hfind : s.fdClientMap.find? fd = some id) : s.Owns fd id ∧ ∀ id', s.Owns fd id' → id' = id := by
  refine ⟨h.owned fd id hfind, ?_⟩
  rintro id' ⟨n, hn, rfl, rfl | rfl⟩
  · have hown := h.own n hn
    rw [hfind] at hown
    exact (Option.some.inj hown).symm
  · have hcgi := h.cgi n hn (h.mapped _ id hfind).2.1
    rw [hfind] at hcgi
    exact (Option.some.inj hcgi).symm

/-! ## What is kept by a new connection and by a call -/

/-- No client goes, no number comes twice, and no descriptor changes its client. -/
structure Keeps (s s' : EventLoop) : Prop where
  server : s'.server = s.server
  events : s'.events = s.events
  log : s'.log = s.log
  nextId : s.nextId ≤ s'.nextId
  map : ∀ fd id, s.fdClientMap.find? fd = some id → s'.fdClientMap.find? fd = some id
  clients : ∀ n ∈ s'.clients, (∃ m ∈ s.clients, m.id = n.id) ∨ s.nextId ≤ n.id

/-- Nothing was done. -/
theorem Keeps.refl (s : EventLoop) : Keeps s s :=
  ⟨rfl, rfl, rfl, le_refl _, fun _ _ hfind => hfind, fun n hn => Or.inl ⟨n, hn, rfl⟩⟩

section Keeps

variable {s : EventLoop} {id : Nat} {c c' : Client}

/-- A descriptor that was not open is mapped.  No other entry of the map had it, so that the entries that
there are stay. -/
theorem Sound.find?_insert (h : Sound s) {fd fd' : Fd} {id' : Nat} (hclosed : fd ∉ s.opened)
    (hfind : s.fdClientMap.find? fd' = some id') :
    (s.fdClientMap.insert fd id).find? fd' = some id' := by
  rw [OrderedMap.find?_insert_of_ne _ _, hfind]
  rintro rfl
  exact hclosed (h.mapped fd' id' hfind).1

/-- A new connection has a number that was nobody's, even if the kernel gives it a descriptor that was
closed in this batch. -/
theorem Sound.keeps_addConnection (h : Sound s) (sys : AcceptSys) (socket : Fd) :
    Keeps s (s.addConnection sys socket) := by
  unfold EventLoop.addConnection
  cases hfresh : s.fresh sys.accept with
  | none => exact Keeps.refl s
  | some fd =>
    have hclosed := (fresh_eq_some hfresh).1
    have hnew : ∀ n ∈ (⟨s.nextId, Client.init s.server s.fs socket fd sys.now⟩ : ClientNode) ::
        s.clients, (∃ m ∈ s.clients, m.id = n.id) ∨ s.nextId ≤ n.id := by
      rw [List.forall_mem_cons]
      exact ⟨Or.inr (le_refl _), fun n hn => Or.inl ⟨n, hn, rfl⟩⟩
    dsimp only
    split_ifs
    · exact ⟨rfl, rfl, rfl, Nat.le_succ _, fun _ _ hfind => h.find?_insert hclosed hfind, hnew⟩
    · exact ⟨rfl, rfl, rfl, Nat.le_succ _, fun _ _ hfind => hfind, hnew⟩
    · rw [closeFd_openFd hclosed]
      exact Keeps.refl s

/-- A call into a client changes the client and not where it is. -/
theorem keeps_setClient (hmem : ⟨id, c⟩ ∈ s.clients) : Keeps s (s.setClient id c') := by
  refine ⟨rfl, rfl, rfl, le_refl _, fun _ _ hfind => hfind, fun n hn => ?_⟩
  rcases (mem_setClient hmem).mp hn with rfl | ⟨hn, -⟩
  · exact Or.inl ⟨⟨id, c⟩, hmem, rfl⟩
  · exact Or.inl ⟨n, hn, rfl⟩

/-- The socket of a new CGI was nobody's either. -/
theorem Sound.keeps_attachCGI (h : Sound s) (hmem : ⟨id, c⟩ ∈ s.clients) {sys : Sys}
    (hsockets : Sockets s sys c c') : Keeps s ((s.setClient id c').attachCGI sys c c') := by
  have hset : Keeps s (s.setClient id c') := keeps_setClient hmem
  rcases hsockets.cgi with hcgi | ⟨hnone, hopens, hctl⟩
  · rw [attachCGI_of_same hcgi]
    exact hset
  · rw [attachCGI_of_new h hmem hsockets.fd (by rw [hnone]; exact hopens.number) hctl]
    exact { hset with map := fun _ _ hfind => h.find?_insert hopens.closed hfind }

/-- A call that throws no exception. -/
theorem Sound.keeps_call (h : Sound s) (hclient : s.client? id = some c) {sys : Sys}
    {f : Sys → Client → Ret × Client} (hf : Admissible f { c with context := c.context.setFs s.fs })
    (hret : ∀ fault, (s.call id sys f).1 ≠ .throws fault) : Keeps s (s.call id sys f).2 := by
  rcases call_cases hclient sys f with ⟨-, fault, hthrows⟩ | ⟨hreturns, heq⟩
  · exact absurd hthrows (hret fault)
  · rw [heq]
    exact { h.keeps_attachCGI (client?_eq_some hclient) (sockets_of_admissible hf hreturns) with }

/-- Attaching a CGI is not recorded. -/
theorem log_attachCGI (s : EventLoop) (sys : Sys) (c c' : Client) :
    (s.attachCGI sys c c').log = s.log := by
  unfold EventLoop.attachCGI addCGIToClientMap
  dsimp only
  split_ifs
  · rfl
  · split <;> rfl
  · rfl

/-- A call into a client adds nothing to the record. -/
theorem log_call (s : EventLoop) (id : Nat) (sys : Sys) (f : Sys → Client → Ret × Client) :
    (s.call id sys f).2.log = s.log := by
  unfold EventLoop.call
  cases hclient : s.client? id with
  | none => rfl
  | some c =>
    dsimp only
    generalize f (s.answers sys c) { c with context := c.context.setFs s.fs } = r
    obtain ⟨ret, c'⟩ := r
    cases ret <;> exact log_attachCGI _ _ _ _

end Keeps

/-! ## Between two events -/

/-- What the record says: a call into a client is for a descriptor that was mapped to the client in
the state `s₀`, and the client was not removed before. -/
def Faithful (s₀ : EventLoop) (log : List Action) : Prop :=
  ∀ earlier a later, log = earlier ++ a :: later → ∀ fd id, a = .handleIn fd id ∨ a = .handleOut fd id →
    s₀.fdClientMap.find? fd = some id ∧ Action.remove id ∉ earlier

theorem Faithful.append {s₀ : EventLoop} {log : List Action} (h : Faithful s₀ log) {a : Action}
    (ha : ∀ fd id, a = .handleIn fd id ∨ a = .handleOut fd id →
      s₀.fdClientMap.find? fd = some id ∧ Action.remove id ∉ log) : Faithful s₀ (log ++ [a]) := by
  intro earlier b later heq fd id hb
  rcases List.eq_nil_or_concat later with rfl | ⟨later, last, rfl⟩
  · obtain ⟨rfl, hab⟩ := List.append_inj' heq rfl
    cases hab
    exact ha fd id hb
  · rw [List.concat_eq_append, ← List.cons_append, ← List.append_assoc] at heq
    exact h earlier b later (List.append_inj' heq rfl).1 fd id hb

/-- A descriptor of the rest of the batch: its event was taken out, or it is a listening socket, or it
leads to the client it led to at the start. -/
def Still (s₀ s : EventLoop) (fd : Fd) : Prop :=
  fd = -1 ∨ s.isListening fd = true ∨
    ∃ id, s₀.fdClientMap.find? fd = some id ∧ s.fdClientMap.find? fd = some id

/-- What holds between two events of the batch: the server is sound, the events still to come are for
sockets that mean what they meant, and all calls so far were faithful. -/
structure Tracks (s₀ s : EventLoop) : Prop where
  sound : Sound s
  server : s.server = s₀.server
  events : ∀ ev ∈ s.events, Still s₀ s ev.fd
  removed : ∀ id, Action.remove id ∈ s.log → id < s.nextId ∧ ∀ n ∈ s.clients, n.id ≠ id
  faithful : Faithful s₀ s.log

section Tracks

variable {s₀ s s' : EventLoop} {id : Nat} {c : Client}

theorem Keeps.still (h : Keeps s s') {fd : Fd} (hstill : Still s₀ s fd) : Still s₀ s' fd := by
  rcases hstill with hnone | hlistening | ⟨id, hstart, hnow⟩
  · exact Or.inl hnone
  · refine Or.inr (Or.inl ?_)
    rwa [isListening, h.server]
  · exact Or.inr (Or.inr ⟨id, hstart, h.map fd id hnow⟩)

theorem Tracks.isListening (h : Tracks s₀ s) (fd : Fd) : s.isListening fd = s₀.isListening fd := by
  rw [EventLoop.isListening, EventLoop.isListening, h.server]

theorem Tracks.keeps (h : Tracks s₀ s) (hkeeps : Keeps s s') (hsound : Sound s') : Tracks s₀ s' where
  sound := hsound
  server := hkeeps.server.trans h.server
  events := by
    rw [hkeeps.events]
    exact fun ev hev => hkeeps.still (h.events ev hev)
  removed := by
    rw [hkeeps.log]
    intro id hid
    obtain ⟨hlt, hgone⟩ := h.removed id hid
    refine ⟨Nat.lt_of_lt_of_le hlt hkeeps.nextId, fun n hn heq => ?_⟩
    rcases hkeeps.clients n hn with ⟨m, hm, hmn⟩ | hnew
    · exact hgone m hm (hmn.trans heq)
    · omega
  faithful := by
    rw [hkeeps.log]
    exact h.faithful

/-- The descriptor of an event of the rest of the batch after a removal. -/
theorem fd_neutralise (fd : Fd) (ev : EpollEvent) :
    (neutralise fd ev).fd = if ev.fd = fd then -1 else ev.fd := by
  unfold neutralise
  split_ifs <;> rfl

/-- A removal takes the events of both descriptors out of the batch. -/
theorem Tracks.dropped (h : Tracks s₀ s) (hmem : ⟨id, c⟩ ∈ s.clients) (hdropped : Dropped s id c s') :
    Tracks s₀ s' where
  sound := h.sound.dropped hmem hdropped
  server := hdropped.server.trans h.server
  events := by
    rw [hdropped.events]
    intro ev' hev'
    obtain ⟨ev, hev, rfl⟩ := List.mem_map.mp hev'
    rw [fd_neutralise, fd_neutralise]
    split_ifs with hfd hnone hcgi
    · exact Or.inl rfl
    · exact Or.inl rfl
    · exact Or.inl rfl
    · rcases h.events ev hev with hnone | hlistening | ⟨id', hstart, hnow⟩
      · exact Or.inl hnone
      · refine Or.inr (Or.inl ?_)
        rwa [EventLoop.isListening, hdropped.server]
      · exact Or.inr (Or.inr ⟨id', hstart,
          (hdropped.map ev.fd id').mpr ⟨hnow, hfd, fun heq => absurd heq hcgi⟩⟩)
  removed := by
    rw [hdropped.log, hdropped.nextId, hdropped.clients]
    intro id' hid'
    rcases List.mem_append.mp hid' with hold | hnew
    · obtain ⟨hlt, hgone⟩ := h.removed id' hold
      exact ⟨hlt, fun n hn => hgone n (List.mem_filter.mp hn).1⟩
    · cases List.mem_singleton.mp hnew
      exact ⟨h.sound.lt_nextId _ hmem, fun n hn => of_decide_eq_true (List.mem_filter.mp hn).2⟩
  faithful := by
    rw [hdropped.log]
    exact h.faithful.append fun fd id' ha => by simp at ha

/-- An event is handed to the client that its descriptor is mapped to. -/
theorem Tracks.dispatch (h : Tracks s₀ s) {fd : Fd} (hstart : s₀.fdClientMap.find? fd = some id)
    (hnow : s.fdClientMap.find? fd = some id) {action : Nat → Action}
    (haction : action = .handleIn fd ∨ action = .handleOut fd) :
    Tracks s₀ { s with log := s.log ++ [action id] } where
  sound := h.sound.congr rfl rfl rfl rfl rfl rfl
  server := h.server
  events := h.events
  removed := by
    intro id' hid'
    rcases List.mem_append.mp hid' with hold | hnew
    · exact h.removed id' hold
    · rcases haction with rfl | rfl <;> cases List.mem_singleton.mp hnew
  faithful := by
    refine h.faithful.append fun fd' id' ha => ?_
    have hsame : fd' = fd ∧ id' = id := by
      rcases haction with rfl | rfl <;> rcases ha with ha | ha <;> cases ha <;> exact ⟨rfl, rfl⟩
    rw [hsame.1, hsame.2]
    refine ⟨hstart, fun hremoved => ?_⟩
    obtain ⟨n, hn, hid, -⟩ := h.sound.owned fd id hnow
    exact (h.removed id hremoved).2 n hn hid

/-! ## One event -/

/-- A part of the body of the loop: it goes on with the table tracked, or it leaves the body. -/
def KeepsTrack (s₀ : EventLoop) (fd : Fd) : Stage → Prop
  | .ok s => Tracks s₀ s ∧ Still s₀ s fd
  | .error (goesOn, s) => Faithful s₀ s.log ∧ (goesOn = true → Tracks s₀ s)

theorem Tracks.removeConnection (h : Tracks s₀ s) {fd : Fd}
    (hnow : s.fdClientMap.find? fd = some id) (epollDel : Fd → Bool) :
    Faithful s₀ (s.removeConnection epollDel fd).2.log ∧
      ((s.removeConnection epollDel fd).2.down.isSome = true ∨
        s.removeConnection epollDel fd = (false, s) ∨
        (s.removeConnection epollDel fd).1 = true ∧ Tracks s₀ (s.removeConnection epollDel fd).2) := by
  rcases h.sound.removeConnection_cases hnow epollDel with ⟨hdown, hlog⟩ | heq | ⟨hremoved, c, hmem, -,
    hdropped⟩
  · rw [hlog]
    exact ⟨h.faithful, Or.inl hdown⟩
  · rw [heq]
    exact ⟨h.faithful, Or.inr (Or.inl rfl)⟩
  · have htracks := h.dropped hmem hdropped
    exact ⟨htracks.faithful, Or.inr (Or.inr ⟨hremoved, htracks⟩)⟩

theorem Tracks.handleHangup (h : Tracks s₀ s) (sys : EventSys) {ev : EpollEvent}
    (hstill : Still s₀ s ev.fd) (hnow : s.fdClientMap.find? ev.fd = some id) :
    KeepsTrack s₀ ev.fd (s.handleHangup sys ev) := by
  unfold EventLoop.handleHangup
  split_ifs with hhangup
  · obtain ⟨hfaithful, hcases⟩ := h.removeConnection hnow sys.epollDel
    generalize s.removeConnection sys.epollDel ev.fd = r at hfaithful hcases
    obtain ⟨removed, s'⟩ := r
    dsimp only at hfaithful hcases ⊢
    rcases hcases with hsome | heq | ⟨hremoved, htracks⟩
    · rw [if_pos (Or.inr hsome)]
      refine ⟨hfaithful, fun hgoes => ?_⟩
      rw [Option.isNone_iff_eq_none.mp hgoes] at hsome
      cases hsome
    · cases heq
      by_cases hdown : s.down.isSome = true
      · rw [if_pos (Or.inr hdown)]
        exact ⟨hfaithful, fun _ => h⟩
      · rw [if_neg (by simp [hdown])]
        exact ⟨h, hstill⟩
    · rw [if_pos (Or.inl hremoved)]
      exact ⟨hfaithful, fun _ => htracks⟩
  · exact ⟨h, hstill⟩

/-- A call into the client of a descriptor: after any answer but `REQ_CONTINUE` the loop is left. -/
theorem Tracks.call (h : Tracks s₀ s) {fd : Fd} (hstill : Still s₀ s fd)
    (hnow : s.fdClientMap.find? fd = some id) (epollDel : Fd → Bool) (sys : Sys)
    {f : Sys → Client → Ret × Client} (hf : Handles fd f) :
    KeepsTrack s₀ fd (match s.call id sys f with
      | (.reqContinue, s) => return s
      | (.throws _, s) => throw (false, s)
      | (_, s) => throw (false, (s.removeConnection epollDel fd).2)) := by
  obtain ⟨c, hclient, -⟩ := h.sound.client? hnow
  have hadmissible := h.sound.admissible hnow hclient hf
  have hlog := log_call s id sys f
  have hreturns : (∀ fault, (s.call id sys f).1 ≠ .throws fault) →
      Tracks s₀ (s.call id sys f).2 ∧ Keeps s (s.call id sys f).2 := by
    intro hret
    have hkeeps := h.sound.keeps_call hclient hadmissible hret
    exact ⟨h.keeps hkeeps (h.sound.call_of_returns hclient hadmissible hret), hkeeps⟩
  generalize s.call id sys f = r at hlog hreturns ⊢
  obtain ⟨ret, s'⟩ := r
  have hdrop : (∀ fault, ret ≠ .throws fault) →
      KeepsTrack s₀ fd (.error (false, (s'.removeConnection epollDel fd).2)) := by
    intro hret
    obtain ⟨htracks, hkeeps⟩ := hreturns hret
    exact ⟨(htracks.removeConnection (hkeeps.map fd id hnow) epollDel).1, nofun⟩
  cases ret with
  | reqContinue =>
    obtain ⟨htracks, hkeeps⟩ := hreturns nofun
    exact ⟨htracks, hkeeps.still hstill⟩
  | throws fault =>
    refine ⟨?_, nofun⟩
    rw [show s'.log = s.log from hlog]
    exact h.faithful
  | reqDone => exact hdrop nofun
  | reqError => exact hdrop nofun

/-- The descriptor of a client is looked up again before each of the two calls. -/
theorem Tracks.handleReady (h : Tracks s₀ s) {fd : Fd} (hstill : Still s₀ s fd)
    (hlistening : s₀.isListening fd = false) (epollDel : Fd → Bool) (ready : Bool)
    {action : Nat → Action} (haction : action = .handleIn fd ∨ action = .handleOut fd) (sys : Sys)
    {f : Sys → Client → Ret × Client} (hf : Handles fd f) :
    KeepsTrack s₀ fd (s.handleReady epollDel fd ready action sys f) := by
  unfold EventLoop.handleReady
  cases hnow : s.fdClientMap.find? fd with
  | none => exact ⟨h.faithful, fun _ => h⟩
  | some id =>
    have hstart : s₀.fdClientMap.find? fd = some id := by
      rcases hstill with hnone | hsome | ⟨id', hstart, hsame⟩
      · exact absurd hnone (h.sound.mapped fd id hnow).2.1
      · rw [h.isListening, hlistening] at hsome
        cases hsome
      · rw [hnow] at hsame
        rw [hstart, hsame]
    dsimp only
    split_ifs
    · exact (h.dispatch hstart hnow haction).call hstill hnow epollDel sys hf
    · exact ⟨h, hstill⟩

/-- A part of the body after another one.  The body of the loop is a sequence of such parts, and each may
end the iteration. -/
theorem KeepsTrack.bind {fd : Fd} {r : Stage} (h : KeepsTrack s₀ fd r) {f : EventLoop → Stage}
    (hf : ∀ s, Tracks s₀ s → Still s₀ s fd → KeepsTrack s₀ fd (f s)) : KeepsTrack s₀ fd (r >>= f) := by
  cases r with
  | ok s => exact hf s h.1 h.2
  | error r => exact h

theorem Tracks.handleClient (h : Tracks s₀ s) (sys : EventSys) {ev : EpollEvent}
    (hstill : Still s₀ s ev.fd) (hlistening : s₀.isListening ev.fd = false)
    (hnow : s.fdClientMap.find? ev.fd = some id) : KeepsTrack s₀ ev.fd (s.handleClient sys ev) := by
  unfold EventLoop.handleClient
  refine (h.handleHangup sys hstill hnow).bind fun s₁ h₁ hstill₁ => ?_
  refine (h₁.handleReady hstill₁ hlistening _ _ (Or.inl rfl) _ .handleIn).bind
    fun s₂ h₂ hstill₂ => ?_
  exact h₂.handleReady hstill₂ hlistening _ _ (Or.inr rfl) _ .handleOut

/-- One event of the batch.  Its descriptor means what it meant at the start, and so it will for the events
that follow. -/
theorem Tracks.handleEvent (h : Tracks s₀ s) {sys : EventSys} (hctl : sys.accept.epollCtl = true)
    {ev : EpollEvent} (hstill : Still s₀ s ev.fd) :
    Faithful s₀ (s.handleEvent sys ev).2.log ∧
      ((s.handleEvent sys ev).1 = true → Tracks s₀ (s.handleEvent sys ev).2) := by
  unfold EventLoop.handleEvent
  split_ifs with hlistening hnone
  · have hinit : ¬ s.FailsInit sys.accept := by
      rintro ⟨-, -, hfails⟩
      rw [hctl] at hfails
      cases hfails
    have htracks := h.keeps (h.sound.keeps_addConnection sys.accept ev.fd)
      (h.sound.addConnection hinit ev.fd)
    exact ⟨htracks.faithful, fun _ => htracks⟩
  · exact ⟨h.faithful, fun _ => h⟩
  · cases hnow : s.fdClientMap.find? ev.fd with
    | none =>
      rw [hnow] at hnone
      exact absurd rfl hnone
    | some id =>
      have hpasses := h.handleClient sys hstill
        (by rw [← h.isListening]; exact Bool.eq_false_iff.mpr hlistening) hnow
      cases hstage : s.handleClient sys ev with
      | ok s' =>
        rw [hstage] at hpasses
        exact ⟨hpasses.1.faithful, fun _ => hpasses.1⟩
      | error r =>
        rw [hstage] at hpasses
        exact hpasses

/-- The rest of the batch, by induction on its events. -/
theorem Tracks.handleEvents : ∀ (answers : List EventSys) {s : EventLoop}, Tracks s₀ s →
    (∀ sys ∈ answers, sys.accept.epollCtl = true) → Faithful s₀ (handleEvents answers s).log
  | [], s, h, _ => h.faithful
  | sys :: answers, s, h, hctl => by
    unfold EventLoop.handleEvents
    cases hevents : s.events with
    | nil => exact h.faithful
    | cons ev events =>
      have hmem := h.events
      rw [hevents] at hmem
      have hrest : Tracks s₀ { s with events := events } :=
        ⟨h.sound.congr rfl rfl rfl rfl rfl rfl, h.server,
          fun ev' hev' => hmem ev' (List.mem_cons_of_mem _ hev'), h.removed, h.faithful⟩
      obtain ⟨hfaithful, htracks⟩ := hrest.handleEvent (hctl sys (List.mem_cons_self ..))
        (hmem ev (List.mem_cons_self ..))
      dsimp only
      generalize ({ s with events := events } : EventLoop).handleEvent sys ev = r at hfaithful htracks
      obtain ⟨goesOn, s'⟩ := r
      cases goesOn with
      | true =>
        exact Tracks.handleEvents answers (htracks rfl) fun sys' hsys' =>
          hctl sys' (List.mem_cons_of_mem _ hsys')
      | false => exact hfaithful

end Tracks

/-- **No stale event.**  A batch of events on watched descriptors is handled, from a state in which the
table is sound: the table is consistent, and the descriptors in it are open.  Unless an accepted
socket cannot be added to epoll, each call into a client is for a descriptor that this client, and no
other, owned when the batch came, and no call is into a client that was removed before. -/
theorem handleEvents_faithful (s : EventLoop) (h : Sound s) (events : List EpollEvent)
    (hwatched : ∀ ev ∈ events, ev.fd ∈ s.interest) (answers : List EventSys)
    (hctl : ∀ sys ∈ answers, sys.accept.epollCtl = true) (earlier later : List Action) (fd : Fd)
    (id : Nat)
    (hlog : (handleEvents answers { s with events := events, log := [] }).log =
        earlier ++ .handleIn fd id :: later ∨
      (handleEvents answers { s with events := events, log := [] }).log =
        earlier ++ .handleOut fd id :: later) :
    s.Owns fd id ∧ (∀ id', s.Owns fd id' → id' = id) ∧ Action.remove id ∉ earlier := by
  have htracks : Tracks s { s with events := events, log := [] } := by
    refine ⟨h.congr rfl rfl rfl rfl rfl rfl, rfl, fun ev hev => ?_, fun id hid => absurd hid
      List.not_mem_nil, fun earlier a later heq => absurd heq (by simp)⟩
    rcases h.interest ev.fd (hwatched ev hev) with hlistening | hmapped
    · exact Or.inr (Or.inl hlistening)
    · obtain ⟨id, hfind⟩ := Option.isSome_iff_exists.mp hmapped
      exact Or.inr (Or.inr ⟨id, hfind, hfind⟩)
  have hfaithful := htracks.handleEvents answers hctl
  have hdispatched : s.fdClientMap.find? fd = some id ∧ Action.remove id ∉ earlier := by
    rcases hlog with hlog | hlog
    · exact hfaithful earlier _ later hlog fd id (Or.inl rfl)
    · exact hfaithful earlier _ later hlog fd id (Or.inr rfl)
  exact ⟨(h.owns hdispatched.1).1, (h.owns hdispatched.1).2, hdispatched.2⟩

/-! ## A descriptor that is given out again -/

def scriptServer : Server := .single 3 { locations := [Client.scriptLocation] } fun _ => 0

/-- The client on 4 runs a CGI on 7, and another client is on 5. -/
def twoClients : EventLoop :=
  (start scriptServer { table := fun p => if p = bytes "/php" then some { kind := .regular [] } else none }).run
    [.addConnection ⟨some 4, true, true, 0⟩ 3, .handleIn (.receiving Client.chunkedPost) 4,
      .addConnection ⟨some 5, true, true, 0⟩ 3]

/-- The kernel gives out 7, and a byte is received. -/
def givesSeven : EventSys :=
  ⟨⟨some 7, true, true, 0⟩, .receiving (bytes "x"), .quiet 0, fun _ => true⟩

/-- An event on 5, a hangup on 4, a new connection, and an event on 7. -/
def mixedBatch : List EpollEvent :=
  [⟨5, false, true, false⟩, ⟨4, true, false, false⟩, ⟨3, false, true, false⟩, ⟨7, false, true, false⟩]

set_option maxRecDepth 10000 in
/-- The hangup closes 4 and 7, the new connection gets 7, and the event on 7 is not for it. -/
theorem handleEvents_faithful_reused :
    (handleEvents (List.replicate 4 givesSeven)
        { twoClients with events := mixedBatch, log := [] }).fdClientMap.entries = [(5, 1), (7, 2)] ∧
      (handleEvents (List.replicate 4 givesSeven)
        { twoClients with events := mixedBatch, log := [] }).log = [.handleIn 5 1, .remove 0] ∧
      twoClients.Owns 5 1 ∧ (∀ id, twoClients.Owns 5 id → id = 1) ∧ Action.remove 1 ∉ [] := by
  have hlog : (handleEvents (List.replicate 4 givesSeven)
      { twoClients with events := mixedBatch, log := [] }).log = [.handleIn 5 1, .remove 0] := by
    decide
  have hsound : Sound twoClients := sound_run _ _ _
    ⟨fun hfails => (nomatch hfails.2.2), trivial, fun hfails => (nomatch hfails.2.2), trivial⟩ (by decide)
  exact ⟨by decide, hlog, handleEvents_faithful twoClients hsound mixedBatch (by decide)
    (List.replicate 4 givesSeven) (by decide) [] [.remove 0] 5 1 (Or.inl hlog)⟩

end EventLoop
end Webserv
