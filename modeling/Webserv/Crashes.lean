import Webserv.Boot
import Webserv.Sweep

/-!
# The exceptions of the server

What throws under the loop of the server leaves it, and `main` destroys all its clients.  From the command
line on, with a kernel that registers what it is asked to, the only calls that throw are the ones that
`Client.Faults` names: no check of a timeout, no removal and no look-up of a server block does.

* `configured_of_boot`: what the configuration gives to the clients.
* `Calls`: the call into a client that a turn makes.
* `Tidy.down_turn`: the exceptions of a turn.
* `serve_throws_iff`: the exceptions of the server, from the command line on.

## From one client to the server

`Exceptions` answers the question for one client, under assumptions about its server and its own history.
Here these are discharged.  The server is one that `main` starts, so its sockets have blocks and its
locations were parsed (`configured_of_boot`).  A client of it is in a state that it could be in on its own
(`ServerClients`), and so it is regular.  The loop is a run of turns (`ServerLoop`), and a turn makes one
call into a client at most.  What is left are the exceptions of the server's own code: an iterator that
leads nowhere, a removal that epoll refuses.  The first does not happen since the table is sound; the second
is excluded by the kernel.

## What is asked of the kernel

It registers what it is asked to: `epoll_ctl` succeeds, also for an accepted socket and in a removal.  A
failing one throws in several places, and would end the server at any time and for any client; the theorem
says what ends it when that does not happen.  Nothing else is assumed: reads, sends, files, forks and clocks
are free.

## Why the fault is in the statement

The theorem is an equivalence for each fault, between the end of the server by this fault and the turn that
makes the call.  So it says more than that nothing else throws: whenever such a call is made, the server
does end.
-/

namespace Webserv

/-! ## A server that was configured -/

/-- The blocks of the sockets are blocks of the configuration, and every socket has some. -/
theorem configured_of_configure {sys : ListenSys} {config : Configuration} {server : Server}
    {binds : List (Fd × SockAddr)} (h : configure sys config = .ok (server, binds))
    (hparsed : ∀ block ∈ config.blocks, ∀ loc ∈ block.locations, loc.Parsed) : server.Configured := by
  obtain ⟨-, hblocks⟩ := blocks_of_configure h
  have hfound : ∀ fd blocks, server.serverBlocks.find? fd = some blocks → ∀ name,
      server.findServerBlock fd name =
        (blocks.find? fun block => block.names.contains name).or blocks.head? := by
    intro fd blocks hfind name
    unfold Server.findServerBlock
    rw [hfind]
    dsimp only
    cases blocks.find? fun block => block.names.contains name <;> rfl
  constructor
  · intro fd hfd name
    obtain ⟨blocks, hfind⟩ := Option.isSome_iff_exists.mp hfd
    obtain ⟨first, rest, rfl⟩ := List.exists_cons_of_ne_nil (hblocks fd blocks hfind).1
    rw [hfound fd _ hfind]
    cases (first :: rest).find? fun block => block.names.contains name with
    | none => exact ⟨first, rfl⟩
    | some block => exact ⟨block, rfl⟩
  · intro fd name block hblock
    cases hfind : server.serverBlocks.find? fd with
    | none =>
      unfold Server.findServerBlock at hblock
      rw [hfind] at hblock
      cases hblock
    | some blocks =>
      rw [hfound fd _ hfind, Option.or_eq_some_iff] at hblock
      refine hparsed block ((hblocks fd blocks hfind).2 block ?_)
      rcases hblock with hname | ⟨-, hhead⟩
      · exact List.mem_of_find?_eq_some hname
      · exact List.mem_of_mem_head? hhead

/-- A server that `main` starts. -/
theorem configured_of_boot {signal : Bool} {files : Bytes → Except Bytes Bytes} {sys : ListenSys}
    {args : List Bytes} {server : Server} (h : boot signal files sys args = .serves server) :
    server.Configured := by
  obtain ⟨file, token, conf, binds, hparse, -, hconfigure⟩ := configure_of_boot h
  exact configured_of_configure hconfigure (parsed_of_parse hparse)

namespace EventLoop

/-! ## The calls of a turn -/

/-- The turn calls into the client, on its own socket or on the one of its CGI. -/
inductive Calls (s : EventLoop) : Turn → ClientNode → Event → Prop
  | clientIn {n : ClientNode} {sys : Sys} {epollDel : Fd → Bool} {fd : Fd} : n ∈ s.clients →
      fd = n.client.fd → s.Calls (.input sys epollDel fd) n (.clientIn (s.answers sys n.client))
  | clientOut {n : ClientNode} {sys : Sys} {epollDel : Fd → Bool} {fd : Fd} : n ∈ s.clients →
      fd = n.client.fd → s.Calls (.output sys epollDel fd) n (.clientOut (s.answers sys n.client))
  | cgiIn {n : ClientNode} {sys : Sys} {epollDel : Fd → Bool} {fd : Fd} : n ∈ s.clients →
      fd = n.client.context.cgiSocket → fd ≠ -1 →
      s.Calls (.input sys epollDel fd) n (.cgiIn (s.answers sys n.client))
  | cgiOut {n : ClientNode} {sys : Sys} {epollDel : Fd → Bool} {fd : Fd} : n ∈ s.clients →
      fd = n.client.context.cgiSocket → fd ≠ -1 →
      s.Calls (.output sys epollDel fd) n (.cgiOut (s.answers sys n.client))

/-- The turn makes a call that ends in an exception. -/
def Throws (s : EventLoop) (t : Turn) (fault : Fault) : Prop :=
  ∃ n e, s.Calls t n e ∧ (n.current s.fs).Faults e fault

section Turn

variable {s : EventLoop} {id : Nat} {c : Client}

/-- An exception is all that a call ends the server with. -/
theorem down_call (hclient : s.client? id = some c) (hup : s.down = none) (sys : Sys)
    (f : Sys → Client → Ret × Client) (fault : Fault) :
    (s.call id sys f).2.down = some fault ↔ (s.call id sys f).1 = .throws fault := by
  unfold EventLoop.call
  rw [hclient]
  dsimp only
  generalize f (s.answers sys c) { c with context := c.context.setFs s.fs } = r
  obtain ⟨opened, interest, orphans, map, hattach⟩ := attachCGI_eq
    ({ s.setClient id r.2 with fs := r.2.context.world.fs } : EventLoop) (s.answers sys c) c r.2
  rw [hattach]
  obtain ⟨ret, c'⟩ := r
  cases ret with
  | throws fault' => simp
  | reqContinue | reqDone | reqError => simp [EventLoop.setClient, hup]

/-- No removal through the map throws: each descriptor of the map is watched, so that `EPOLL_CTL_DEL` has
something to take out. -/
theorem Tidy.down_removeConnection (h : Tidy s) {epollDel : Fd → Bool}
    (hdel : ∀ fd, epollDel fd = true) {fd : Fd} (hfind : s.fdClientMap.find? fd = some id) :
    (s.removeConnection epollDel fd).2.down = s.down := by
  obtain ⟨n, hn, rfl, hown | hcgi⟩ := h.owned fd id hfind
  · rw [hown]
    exact (h.removeConnection_own hn hdel).2.1
  · unfold EventLoop.removeConnection
    rw [hfind, Option.bind_some, h.client?_of_mem hn, Option.map_some]
    dsimp only
    rw [if_pos hcgi]

/-- A connection that is accepted never ends the server: when it cannot be watched, `Client::init` closes
its socket and throws nothing. -/
theorem down_addConnection (sys : AcceptSys) (socket : Fd) :
    (s.addConnection sys socket).down = s.down := by
  unfold EventLoop.addConnection
  cases s.fresh sys.accept with
  | none => rfl
  | some fd =>
    dsimp only
    split_ifs <;> rfl

/-- A turn for a descriptor of the map ends the server if and only if the call does. -/
theorem Tidy.down_serveFd (h : Tidy s) (hup : s.down = none) {epollDel : Fd → Bool}
    (hdel : ∀ fd, epollDel fd = true) {fd : Fd} (hfind : s.fdClientMap.find? fd = some id)
    (hclient : s.client? id = some c) {sys : Sys} (hctl : ∀ fd, sys.epollCtl fd = true)
    {f : Sys → Client → Ret × Client} (hf : Handles fd f) (fault : Fault) :
    (s.serveFd epollDel fd sys f).down = some fault ↔
      (f (s.answers sys c) { c with context := c.context.setFs s.fs }).1 = .throws fault := by
  have hcall := down_call hclient hup sys f fault
  have hadmissible := h.toSound.admissible hfind hclient hf
  rw [← call_fst hclient sys f]
  rcases serveFd_cases epollDel sys f hfind with ⟨-, heq⟩ | ⟨hret, heq⟩
  · rw [heq]
    exact hcall
  · have hafter : Tidy (s.call id sys f).2 :=
      h.call (fun c' hc' => h.toSound.admissible hfind hc' hf) hctl
    have hfind' := (h.toSound.keeps_call hclient hadmissible hret).map fd id hfind
    rw [heq, hafter.down_removeConnection hdel hfind', hcall]

/-- A descriptor is in the map for the client that holds it. -/
theorem Sound.find?_of_holds (h : Sound s) {n : ClientNode} (hn : n ∈ s.clients) {fd : Fd}
    (hholds : n.client.Holds fd) : s.fdClientMap.find? fd = some n.id := by
  rcases hholds with rfl | ⟨rfl, hne⟩
  · exact h.own n hn
  · exact h.cgi n hn hne

/-- The descriptor of the call is one of the two of the client. -/
theorem Calls.holds {t : Turn} {n : ClientNode} {e : Event} (h : s.Calls t n e) :
    n ∈ s.clients ∧ ∃ fd, n.client.Holds fd ∧
      ((∃ sys epollDel, t = .input sys epollDel fd) ∨ ∃ sys epollDel, t = .output sys epollDel fd) := by
  cases h with
  | clientIn hn hfd => exact ⟨hn, _, Or.inl hfd, Or.inl ⟨_, _, rfl⟩⟩
  | clientOut hn hfd => exact ⟨hn, _, Or.inl hfd, Or.inr ⟨_, _, rfl⟩⟩
  | cgiIn hn hfd hne => exact ⟨hn, _, Or.inr ⟨hfd, hne⟩, Or.inl ⟨_, _, rfl⟩⟩
  | cgiOut hn hfd hne => exact ⟨hn, _, Or.inr ⟨hfd, hne⟩, Or.inr ⟨_, _, rfl⟩⟩

/-- A turn makes one call.  The iterator of a descriptor names one node, and the handler of the turn is
fixed. -/
theorem Sound.calls_unique (h : Sound s) {t : Turn} {n m : ClientNode} {e e' : Event}
    (hn : s.Calls t n e) (hm : s.Calls t m e') : n = m ∧ e = e' := by
  have hsame : n = m := by
    obtain ⟨hmem, fd, hholds, ht⟩ := hn.holds
    obtain ⟨hmem', fd', hholds', ht'⟩ := hm.holds
    have hfd : fd = fd' := by
      rcases ht with ⟨_, _, rfl⟩ | ⟨_, _, rfl⟩ <;> rcases ht' with ⟨_, _, heq⟩ | ⟨_, _, heq⟩ <;>
        cases heq <;> rfl
    subst hfd
    exact h.eq_of_id hmem hmem' (Option.some.inj
      ((h.find?_of_holds hmem hholds).symm.trans (h.find?_of_holds hmem' hholds')))
  subst hsame
  refine ⟨rfl, ?_⟩
  cases hn with
  | clientIn hmem hfd =>
    cases hm with
    | clientIn => rfl
    | cgiIn _ hcgi => exact absurd (hfd.symm.trans hcgi) (h.ne_cgi n hmem)
  | clientOut hmem hfd =>
    cases hm with
    | clientOut => rfl
    | cgiOut _ hcgi => exact absurd (hfd.symm.trans hcgi) (h.ne_cgi n hmem)
  | cgiIn hmem hcgi =>
    cases hm with
    | clientIn _ hfd => exact absurd (hfd.symm.trans hcgi) (h.ne_cgi n hmem)
    | cgiIn => rfl
  | cgiOut hmem hcgi =>
    cases hm with
    | clientOut _ hfd => exact absurd (hfd.symm.trans hcgi) (h.ne_cgi n hmem)
    | cgiOut => rfl

/-- A descriptor of the map leads to a call. -/
theorem Sound.exists_calls (h : Sound s) {fd : Fd} (hmapped : (s.fdClientMap.find? fd).isSome = true)
    (sys : Sys) (epollDel : Fd → Bool) : (∃ n e, s.Calls (.input sys epollDel fd) n e) ∧
      ∃ n e, s.Calls (.output sys epollDel fd) n e := by
  obtain ⟨id, hfind⟩ := Option.isSome_iff_exists.mp hmapped
  obtain ⟨n, hn, -, hown | hcgi⟩ := h.owned fd id hfind
  · exact ⟨⟨n, _, .clientIn hn hown⟩, n, _, .clientOut hn hown⟩
  · have hne := (h.mapped fd id hfind).2.1
    exact ⟨⟨n, _, .cgiIn hn hcgi hne⟩, n, _, .cgiOut hn hcgi hne⟩

/-- The call is left to end the server: everything else in a turn either succeeds or throws nothing. -/
theorem Tidy.down_calls (h : Tidy s) (hup : s.down = none) {t : Turn} (hregisters : t.Registers)
    {n : ClientNode} {e : Event} (hcalls : s.Calls t n e) (fault : Fault) :
    (s.turn t).down = some fault ↔ (n.current s.fs).callAnswer e = .throws fault := by
  obtain ⟨hn, fd, hholds, -⟩ := hcalls.holds
  have hclient := h.client?_of_mem hn
  have hne := h.ne_cgi n hn
  have hcurrent : (n.current s.fs).context.cgiSocket = n.client.context.cgiSocket := rfl
  rw [turn_of_up hup]
  cases hcalls with
  | clientIn _ hfd =>
    rw [h.down_serveFd hup hregisters.2 (h.find?_of_holds hn (Or.inl hfd)) hclient hregisters.1
      .handleIn, Client.handleIn, if_pos hfd]
    rfl
  | clientOut _ hfd =>
    rw [h.down_serveFd hup hregisters.2 (h.find?_of_holds hn (Or.inl hfd)) hclient hregisters.1
      .handleOut, Client.handleOut, if_pos hfd]
    rfl
  | cgiIn _ hcgi hnumber =>
    rw [h.down_serveFd hup hregisters.2 (h.find?_of_holds hn (Or.inr ⟨hcgi, hnumber⟩)) hclient
      hregisters.1 .handleIn, Client.handleIn, if_neg (fun hfd => hne (hfd.symm.trans hcgi)),
      Client.callAnswer, hcurrent, if_neg (fun heq => hnumber (hcgi.trans heq))]
  | cgiOut _ hcgi hnumber =>
    rw [h.down_serveFd hup hregisters.2 (h.find?_of_holds hn (Or.inr ⟨hcgi, hnumber⟩)) hclient
      hregisters.1 .handleOut, Client.handleOut, if_neg (fun hfd => hne (hfd.symm.trans hcgi)),
      Client.callAnswer, hcurrent, if_neg (fun heq => hnumber (hcgi.trans heq))]

/-- A kernel that registers everything does so in the call of the turn. -/
theorem Calls.registers {t : Turn} {n : ClientNode} {e : Event} (h : s.Calls t n e)
    (hregisters : t.Registers) : e.Registers := by
  cases h <;> exact hregisters.1

/-- **The exceptions of a turn.**  A turn of a server that was configured ends it if and only if it makes
one of the calls that throw. -/
theorem Tidy.down_turn (h : Tidy s) (hlives : Lives s) (hserver : s.server.Configured)
    (hup : s.down = none) {its : List Iteration} {t : Turn} (hoffered : Offered its s t)
    (hregisters : t.Registers) (fault : Fault) :
    (s.turn t).down = some fault ↔ s.Throws t fault := by
  have hcall : ∀ {n e}, s.Calls t n e → ((s.turn t).down = some fault ↔ s.Throws t fault) := by
    intro n e hcalls
    have hregular := ((hlives.reached n hcalls.holds.1).setFs s.fs).regular
    rw [h.down_calls hup hregisters hcalls,
      hregular.callAnswer_throws_iff ((hlives.reached n hcalls.holds.1).isOpen) hserver
        (hcalls.registers hregisters)]
    constructor
    · exact fun hfaults => ⟨n, e, hcalls, hfaults⟩
    · rintro ⟨m, e', hcalls', hfaults⟩
      obtain ⟨rfl, rfl⟩ := h.calls_unique hcalls hcalls'
      exact hfaults
  -- a turn without a call
  have hnone : (∀ n e, ¬ s.Calls t n e) → (s.turn t).down = s.down →
      ((s.turn t).down = some fault ↔ s.Throws t fault) := by
    intro hnot hdown
    rw [hdown, hup]
    constructor
    · exact fun hsome => absurd hsome.symm (Option.some_ne_none fault)
    · rintro ⟨n, e, hcalls, -⟩
      exact absurd hcalls (hnot n e)
  obtain ⟨it, -, hoffers⟩ := hoffered
  cases hoffers with
  | accept =>
    refine hnone (fun n e hcalls => by cases hcalls) ?_
    rw [turn_of_up hup]
    exact down_addConnection _ _
  | input hsys hmapped =>
    obtain ⟨⟨n, e, hcalls⟩, -⟩ := h.exists_calls hmapped _ _
    exact hcall hcalls
  | output hsys hmapped =>
    obtain ⟨-, n, e, hcalls⟩ := h.exists_calls hmapped _ _
    exact hcall hcalls
  | hangup hsys hmapped =>
    obtain ⟨id, hfind⟩ := Option.isSome_iff_exists.mp hmapped
    refine hnone (fun n e hcalls => by cases hcalls) ?_
    rw [turn_of_up hup]
    exact h.down_removeConnection hregisters hfind
  | shutdown hsignal hn =>
    refine hnone (fun n e hcalls => by cases hcalls) ?_
    rw [turn_of_up hup]
    exact h.down_removeConnection hregisters (h.own _ hn)
  | sweep =>
    refine hnone (fun n e hcalls => by cases hcalls) ?_
    rw [turn_of_up hup, hup]
    exact (h.sweep hup hregisters.1 hregisters.2).1

end Turn

/-! ## The exceptions of a run -/

theorem Iteration.Registers.admits {it : Iteration} (h : it.Registers) : it.Admits :=
  fun sys hsys => (h.answers sys hsys).accept

/-- The clients of a server that runs.  A turn that does not end the server makes one step of one client,
and every other client keeps its own state. -/
theorem Lives.offered {s : EventLoop} (h : Lives s) {its : List Iteration}
    (hregisters : ∀ it ∈ its, it.Registers) {ts : List Turn}
    (hall : Transition.Along EventLoop.turn (Offered its) s ts) (hup : (s.turns ts).down = none) :
    Lives (s.turns ts) := by
  refine Transition.run_invariant (I := fun s => s.down = none → Lives s) ?_ (fun _ => h) hall hup
  rintro s t hs ⟨it, hit, hoffers⟩ hnone
  exact (hs (down_of_turn hnone)).turn (hregisters it hit).admits hoffers hnone

/-- **The exceptions of the server.**  Of a server that `main` starts, whatever clients send and
`epoll_wait` reports, with a kernel that registers what it is asked to: its loop is a run of turns, and
an exception ends it if and only if one of these turns makes a call that `Client.Faults` names. -/
theorem serve_throws_iff {signal : Bool} {files : Bytes → Except Bytes Bytes} {sys : ListenSys}
    {args : List Bytes} {server : Server} (hserves : boot signal files sys args = .serves server)
    (fs : FileSystem) (its : List Iteration) (hregisters : ∀ it ∈ its, it.Registers) :
    ∃ ts, Transition.Along turn (Offered its) (start server fs) ts ∧
      ((start server fs).turns ts).bare = ((start server fs).serve its).bare ∧
      ∀ fault, ((start server fs).serve its).down = some fault ↔
        ∃ us t vs, ts = us ++ t :: vs ∧ ((start server fs).turns us).down = none ∧
          ((start server fs).turns us).Throws t fault := by
  have hserver := configured_of_boot hserves
  obtain ⟨ts, hall, hbare⟩ := serve_turns (start server fs) its
  refine ⟨ts, hall, hbare, fun fault => ?_⟩
  have hdown : ((start server fs).serve its).down = ((start server fs).turns ts).down :=
    (congrArg EventLoop.down hbare).symm
  have hstop : ∀ (s : EventLoop) (t : Turn), s.down.isSome = true → s.turn t = s :=
    fun s t hsome => if_pos hsome
  have hturn : ∀ us t vs, ts = us ++ t :: vs → ((start server fs).turns us).down = none →
      ((((start server fs).turns us).turn t).down = some fault ↔
        ((start server fs).turns us).Throws t fault) := by
    rintro us t vs rfl hup
    obtain ⟨hus, ht, -⟩ := Transition.along_append.mp hall
    have htidy : Tidy ((start server fs).turns us) :=
      (tidy_start server fs).turns (hus.mono fun _ _ hoffered => hoffered.registers hregisters)
    refine htidy.down_turn ((lives_start server fs).offered hregisters hus hup) ?_ hup ht
      (ht.registers hregisters) fault
    rw [server_turns]
    exact hserver
  rw [hdown, Transition.run_stops_iff hstop rfl]
  constructor
  · rintro ⟨us, t, vs, hsplit, hup, hsome⟩
    exact ⟨us, t, vs, hsplit, hup, (hturn us t vs hsplit hup).mp hsome⟩
  · rintro ⟨us, t, vs, hsplit, hup, hthrows⟩
    exact ⟨us, t, vs, hsplit, hup, (hturn us t vs hsplit hup).mpr hthrows⟩

/-! ## A run that ends -/

/-- A location for uploads that has a CGI. -/
def uploadConf : Bytes :=
  bytes "server \x7b listen 80; location / \x7b allow PUT; root /r; cgi php /p; client_body_upload_path /r; \x7d \x7d"

def uploadDirectory : FileSystem where
  table path := if path = bytes "/r" then some { kind := .directory [] } else none

/-- A client comes, and sends an empty body in chunks to the name of a script. -/
def uploadsToScript : List Iteration :=
  [.quiet [⟨3, false, true, false⟩] (some 4) (.quiet 0) false,
    .quiet [⟨4, false, true, false⟩] none (.receiving
      (bytes "PUT /x.php HTTP/1.1\r\nHost: h\r\nTransfer-Encoding: chunked\r\n\r\n0\r\n\r\n")) false]

theorem registers_uploadsToScript : ∀ it ∈ uploadsToScript, it.Registers := by
  rw [uploadsToScript, List.forall_mem_cons, List.forall_mem_cons]
  exact ⟨Iteration.registers_quiet _ _ (fun _ => rfl) _,
    Iteration.registers_quiet _ _ (fun _ => rfl) _, fun it hit => absurd hit List.not_mem_nil⟩

set_option maxRecDepth 20000 in
theorem down_uploadsToScript :
    ∃ server, boot false (fun _ => .ok uploadConf) .quiet [] = .serves server ∧
      ((start server uploadDirectory).serve uploadsToScript).down = some .runtimeError :=
  ⟨_, rfl, by decide +kernel⟩

theorem serve_throws_iff_uploadsToScript :
    ∃ server ts us t vs, boot false (fun _ => .ok uploadConf) .quiet [] = .serves server ∧
      ((start server uploadDirectory).turns ts).bare =
        ((start server uploadDirectory).serve uploadsToScript).bare ∧ ts = us ++ t :: vs ∧
      ((start server uploadDirectory).turns us).Throws t .runtimeError := by
  obtain ⟨server, hserves, hdown⟩ := down_uploadsToScript
  obtain ⟨ts, -, hbare, hiff⟩ :=
    serve_throws_iff hserves uploadDirectory uploadsToScript registers_uploadsToScript
  obtain ⟨us, t, vs, hsplit, -, hthrows⟩ := (hiff _).mp hdown
  exact ⟨server, ts, us, t, vs, hserves, hbare, hsplit, hthrows⟩

end EventLoop
end Webserv
