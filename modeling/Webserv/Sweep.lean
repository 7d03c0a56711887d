import Webserv.Descriptors
import Webserv.Exceptions
import Webserv.SendTimeout

/-!
# The timeout sweep

After each batch the server asks every client once whether a timeout of it has run out.  The list changes
under the iterator of this loop, and an answer may throw; still the sweep comes to every client once, and
leaves none that has run out.

* `Client.Expired`: one of the three timeouts has run out.
* `Client.Checked`: what `timeoutCheck` can do.
* `ClientNode.check`: what a sweep leaves of a client.
* `sweep_serve`: the sweep of a server in any state that its loop reaches.

## What there is to show

The loop advances its iterator before it looks at the answer, because a client that is dropped takes its
node out of the list.  That it misses nobody and comes to nobody twice is a statement about a list that
shrinks while it is walked.  The theorem gives the list afterwards as a function of the list before:
`filterMap` of what each client becomes, in the same order.  That a second sweep at the same time changes
nothing is then a consequence, since no client that is left has a timeout that has run out.

## Why a check makes time

A check that answers a timeout sets the flags of the body and starts the clock of the sending anew.  So the
client that is left waits for neither a head nor a body, and its time to send has just begun
(`not_expired_respondTimeout`).  This uses that the switch to writing succeeds.

## What is asked of the kernel

A sweep calls `epoll_ctl` twice at most for a client: to switch it to writing, and to take it out of epoll.
Both throw when they fail, and the exception ends the server with the rest of the clients unasked.  The
theorem is about a kernel that registers what it is asked to, in the run before the sweep and in the sweep
itself.  What a failing call does is in `Exceptions`.
-/

namespace Webserv
namespace Client

/-! ## One client -/

/-- A timeout has run out: `timeoutCheck` has something to do. -/
def Expired (c : Client) (now : Int) : Prop :=
  c.headerTimeout now = true ∨ c.bodyTimeout now = true ∨ c.sendTimeout now = true

/-- The error that a timeout is answered with: the client was too slow, or its CGI was. -/
def TimeoutError (c : Client) (now : Int) (code : Nat) : Prop :=
  code = statusRequestTimeout ∧ (c.headerTimeout now = true ∨ c.bodyTimeout now = true) ∨
    code = statusGatewayTimeout ∧ c.sendTimeout now = true ∧ c.hasSpoken = false

/-- What a check of the timeouts does: nothing, an answer in place of the output, or the end of the
connection. -/
inductive Checked (c : Client) (sys : Sys) : Ret × Client → Prop
  | keeps (h : ¬ c.Expired sys.now) : Checked c sys (.reqContinue, c)
  | drops (hsend : c.sendTimeout sys.now = true) (hspoken : c.hasSpoken = true) :
      Checked c sys (.reqDone, c)
  | answers {c' : Client} (hstatus : c.TimeoutError sys.now c'.context.response.statusCode)
      (hfresh : ¬ c'.Expired sys.now) (hreplaces : c.Replaces c') : Checked c sys (.reqContinue, c')

section Checked

variable {c : Client} {sys : Sys}

/-- The first timeout depends on the server, one flag and one clock. -/
theorem headerTimeout_congr {c' : Client} (hserver : c'.context.server = c.context.server)
    (hheaders : c'.context.requestState.headers = c.context.requestState.headers)
    (htime : c'.timestamp .clientHeader = c.timestamp .clientHeader) (now : Int) :
    c'.headerTimeout now = c.headerTimeout now := by
  simp only [headerTimeout, timedOut, RequestState.isReadHeadersComplete, hserver, hheaders, htime]

/-- A client whose work is done, and whose time to send has just begun. -/
theorem not_expired {now : Int} (hheader : c.headerTimeout now = false)
    (hworkIn : c.context.requestState.workIn = true) (hcgiOut : c.context.requestState.cgiOut = true)
    (htime : c.timestamp .send = now) : ¬ c.Expired now := by
  rintro (hexpired | hexpired | hexpired)
  · rw [hheader] at hexpired
    cases hexpired
  · simp [bodyTimeout, RequestState.isWorkInComplete, RequestState.isCgiOutComplete, hworkIn,
      hcgiOut] at hexpired
  · simp only [sendTimeout, timedOut, htime, sub_self, Bool.and_eq_true, decide_eq_true_eq] at hexpired
    obtain ⟨-, hon, hpast⟩ := hexpired
    have hnone : c.context.server.getTimeout .send ≠ 0 := by simpa using hon
    omega

/-- The answer to a timeout waits for neither a head nor a body, and its own time has just begun. -/
theorem not_expired_respondTimeout (hctl : ∀ fd, sys.epollCtl fd = true)
    (hheader : c.headerTimeout sys.now = false) : ¬ (c.respondTimeout sys).2.Expired sys.now := by
  unfold respondTimeout
  extract_lets c₁
  obtain ⟨f, heq, -, hpage⟩ := loadErrorPage_cases c₁ sys
  have hstate : f.requestState.headers = c.context.requestState.headers ∧
      f.requestState.workIn = true ∧ f.requestState.cgiOut = true := by
    rcases hpage with ⟨-, hstate⟩ | ⟨-, hstate⟩ <;> rw [hstate] <;> exact ⟨rfl, rfl, rfl⟩
  have hsame : (c₁.withPage f).render.headerTimeout sys.now = false :=
    (@headerTimeout_congr c (c₁.withPage f).render rfl hstate.1 rfl sys.now).trans hheader
  have hdone : (c₁.withPage f).render.context.requestState.workIn = true ∧
      (c₁.withPage f).render.context.requestState.cgiOut = true := hstate.2
  rw [heq]
  generalize (c₁.withPage f).render = c₂ at hsame hdone
  unfold switchToWrite
  rw [if_pos (hctl _)]
  exact not_expired ((@headerTimeout_congr c₂ ((c₂.setState RequestState.setCanWrite).touch .send
    sys.now) rfl rfl rfl sys.now).trans hsame) hdone.1 hdone.2 rfl

/-- The answer to a timeout is put in the place of what was waiting to be sent. -/
theorem replaces_respondTimeout (c : Client) (sys : Sys) : c.Replaces (c.respondTimeout sys).2 := by
  unfold respondTimeout
  extract_lets c₁
  obtain ⟨f, heq, -⟩ := loadErrorPage_cases c₁ sys
  rw [heq]
  have hrender : c.Replaces (c₁.withPage f).render := replaces_render rfl rfl
  exact hrender.switchToWrite sys

/-- **One check.**  It does nothing to a client none of whose timeouts has run out; any other is dropped,
or is answered with an error in the place of what waits to be sent, and has time again. -/
theorem checked_timeoutCheck (c : Client) (hctl : ∀ fd, sys.epollCtl fd = true) :
    Checked c sys (c.timeoutCheck sys) := by
  have hanswers : ∀ c₁ : Client, c.TimeoutError sys.now c₁.context.response.statusCode →
      c₁.headerTimeout sys.now = false → c₁.context.world.sent = c.context.world.sent →
      c₁.context.world.heads = c.context.world.heads → Checked c sys (c₁.respondTimeout sys) := by
    intro c₁ hstatus hheader hsent hheads
    have hreplaces := replaces_respondTimeout c₁ sys
    have hfresh := not_expired_respondTimeout hctl hheader
    rw [← statusCode_respondTimeout c₁ sys] at hstatus
    rw [show c₁.respondTimeout sys = (.reqContinue, (c₁.respondTimeout sys).2) from
      Prod.ext (c₁.respondTimeout_fst hctl) rfl]
    exact .answers hstatus hfresh
      ⟨hreplaces.sent.trans hsent, by rw [← hheads]; exact hreplaces.heads⟩
  unfold timeoutCheck
  split_ifs with hheader hbody hsend hspoken
  · exact hanswers _ (Or.inl ⟨rfl, Or.inl hheader⟩) rfl rfl rfl
  · exact hanswers _ (Or.inl ⟨rfl, Or.inr hbody⟩) (Bool.eq_false_iff.mpr hheader) rfl rfl
  · exact .drops hsend hspoken
  · exact hanswers _ (Or.inr ⟨rfl, hsend, Bool.eq_false_iff.mpr hspoken⟩)
      (Bool.eq_false_iff.mpr hheader) rfl rfl
  · exact .keeps fun hexpired => hexpired.elim hheader fun h => h.elim hbody hsend

end Checked

end Client

/-- The client with the file system that the others have left. -/
abbrev ClientNode.current (n : ClientNode) (fs : FileSystem) : Client :=
  { n.client with context := n.client.context.setFs fs }

/-- What a sweep leaves of a client: of one that is dropped, nothing. -/
def ClientNode.check (fs : FileSystem) (sys : Sys) (n : ClientNode) : Option ClientNode :=
  match (n.current fs).timeoutCheck sys with
  | (.reqContinue, c) => some ⟨n.id, c⟩
  | _ => none

namespace EventLoop

section Sweep

variable {s : EventLoop} {epollDel : Fd → Bool}

/-- The number of a node leads to its client, so that the sweep, which walks the list, and the table agree. -/
theorem Sound.client?_of_mem (h : Sound s) {n : ClientNode} (hn : n ∈ s.clients) :
    s.client? n.id = some n.client := by
  obtain ⟨c, hclient, -⟩ := h.client? (h.own n hn)
  obtain rfl : n.client = c := congrArg ClientNode.client (h.eq_of_id hn (client?_eq_some hclient) rfl)
  exact hclient

/-- A check of the timeouts starts no CGI, whose socket would have to be registered. -/
theorem call_timeoutCheck {n : ClientNode} (hclient : s.client? n.id = some n.client) (sys : Sys)
    {ret : Ret} {c : Client} (hret : ∀ fault, ret ≠ .throws fault)
    (hcheck : (n.current s.fs).timeoutCheck sys = (ret, c)) :
    s.call n.id sys (fun sys c => c.timeoutCheck sys) = (ret, s.setClient n.id c) := by
  have hsteady := Client.steady_timeoutCheck (n.current s.fs) sys
  have hfs := (Client.idles_timeoutCheck (n.current s.fs) sys).fs
  rw [hcheck] at hsteady hfs
  have hanswers : (n.current s.fs).timeoutCheck (s.answers sys n.client) = (ret, c) := hcheck
  have hattach : ∀ s' : EventLoop, s'.attachCGI (s.answers sys n.client) n.client c = s' := fun s' =>
    attachCGI_of_same hsteady.cgiSocket
  have hsame : ({ s.setClient n.id c with fs := c.context.world.fs } : EventLoop) =
      s.setClient n.id c := by
    rw [show c.context.world.fs = s.fs from hfs]
    rfl
  unfold EventLoop.call
  rw [hclient]
  dsimp only
  rw [hanswers, hsame]
  dsimp only
  rw [hattach]
  cases ret with
  | throws fault => exact absurd rfl (hret fault)
  | reqContinue | reqDone | reqError => rfl

/-- The list after the check of one of its clients. -/
theorem Tidy.checkClient_eq (h : Tidy s) (hup : s.down = none) {n : ClientNode} (hn : n ∈ s.clients)
    {sys : Sys} (hctl : ∀ fd, sys.epollCtl fd = true) (hdel : ∀ fd, epollDel fd = true) :
    (s.checkClient sys epollDel n.id).down = none ∧ (s.checkClient sys epollDel n.id).fs = s.fs ∧
      (s.checkClient sys epollDel n.id).clients =
        s.clients.filterMap fun m => if m.id = n.id then n.check s.fs sys else some m := by
  have hclient := h.client?_of_mem hn
  have hchecked := (n.current s.fs).checked_timeoutCheck hctl
  have hset : ∀ c : Client, (s.setClient n.id c).clients =
      s.clients.filterMap fun m => if m.id = n.id then some ⟨n.id, c⟩ else some m := by
    intro c
    show s.clients.map _ = _
    rw [← List.filterMap_eq_map]
    refine List.filterMap_congr fun m _ => ?_
    by_cases hid : m.id = n.id <;> simp [hid]
  have hgoesOn : ∀ c', (n.current s.fs).timeoutCheck sys = (.reqContinue, c') →
      (s.checkClient sys epollDel n.id).down = none ∧ (s.checkClient sys epollDel n.id).fs = s.fs ∧
        (s.checkClient sys epollDel n.id).clients =
          s.clients.filterMap fun m => if m.id = n.id then n.check s.fs sys else some m := by
    intro c' hr
    have hcall := call_timeoutCheck hclient sys (fun _ hret => Ret.noConfusion hret) hr
    have hcheck : n.check s.fs sys = some ⟨n.id, c'⟩ := by rw [ClientNode.check, hr]
    have heq : s.checkClient sys epollDel n.id = s.setClient n.id c' := by
      unfold EventLoop.checkClient
      rw [if_neg (by rw [hup]; exact Bool.false_ne_true), hcall]
    rw [heq, hcheck]
    exact ⟨hup, rfl, hset c'⟩
  generalize hr : (n.current s.fs).timeoutCheck sys = r at hchecked
  cases hchecked with
  | keeps => exact hgoesOn _ hr
  | answers => exact hgoesOn _ hr
  | drops =>
    have hcall := call_timeoutCheck hclient sys (fun _ hret => Ret.noConfusion hret) hr
    have hcheck : n.check s.fs sys = none := by rw [ClientNode.check, hr]
    have htidy : Tidy (s.setClient n.id (n.current s.fs)) := by
      have hafter : Tidy (s.call n.id sys fun sys c => c.timeoutCheck sys).2 :=
        h.call (fun c hc => admissible_timeoutCheck
          (orderly_setFs (h.orderly ⟨n.id, c⟩ (client?_eq_some hc)) s.fs)) hctl
      rwa [hcall] at hafter
    have hmem : ⟨n.id, n.current s.fs⟩ ∈ (s.setClient n.id (n.current s.fs)).clients :=
      (mem_setClient (client?_eq_some hclient)).mpr (Or.inl rfl)
    have hclient' := htidy.client?_of_mem hmem
    obtain ⟨-, hdown, hclients⟩ := htidy.removeConnection_own hmem hdel
    have heq : s.checkClient sys epollDel n.id =
        ((s.setClient n.id (n.current s.fs)).removeConnection epollDel n.client.fd).2 := by
      unfold EventLoop.checkClient
      rw [if_neg (by rw [hup]; exact Bool.false_ne_true), hcall]
      dsimp only at hclient' ⊢
      rw [hclient']
    rw [heq, hcheck]
    refine ⟨hdown.trans hup, (kept_removeConnection epollDel n.client.fd).2, hclients.trans ?_⟩
    rw [hset, List.filter_filterMap]
    refine List.filterMap_congr fun m _ => ?_
    by_cases hid : m.id = n.id <;> simp [hid]

/-- The loop of `_checkClientsTimeout`, when it is done with some of the clients. -/
theorem Tidy.foldl_checkClient {timeouts : Nat → Sys} (hctl : ∀ id fd, (timeouts id).epollCtl fd = true)
    (hdel : ∀ fd, epollDel fd = true) (todo : List ClientNode) :
    ∀ (done : List ClientNode) {s : EventLoop}, Tidy s → s.down = none → s.clients = done ++ todo →
      let s' := (todo.map ClientNode.id).foldl (fun s id => s.checkClient (timeouts id) epollDel id) s
      s'.down = none ∧ s'.fs = s.fs ∧
        s'.clients = done ++ todo.filterMap fun n => n.check s.fs (timeouts n.id) := by
  induction todo with
  | nil => exact fun done s _ hup hclients => ⟨hup, rfl, hclients⟩
  | cons n todo ih =>
    intro done s h hup hclients
    have hn : n ∈ s.clients := by rw [hclients]; simp
    obtain ⟨hup₁, hfs₁, hclients₁⟩ := h.checkClient_eq hup hn (hctl n.id) hdel
    have htidy₁ : Tidy (s.checkClient (timeouts n.id) epollDel n.id) :=
      h.checkClient n.id (hctl n.id) hdel
    -- the numbers of the others are different
    have hother : ∀ m, m ∈ done ∨ m ∈ todo → m.id ≠ n.id := by
      have hnodup := h.nodup
      rw [hclients, List.map_append, List.map_cons, List.nodup_middle, List.nodup_cons] at hnodup
      intro m hm hid
      refine hnodup.1 ?_
      rw [← hid, ← List.map_append]
      exact List.mem_map_of_mem (List.mem_append.mpr hm)
    have hsame : ∀ l : List ClientNode, (∀ m ∈ l, m.id ≠ n.id) →
        (l.filterMap fun m => if m.id = n.id then n.check s.fs (timeouts n.id) else some m) = l := by
      intro l hl
      rw [List.filterMap_congr fun m hm => if_neg (hl m hm), List.filterMap_some]
    have hrest : (s.checkClient (timeouts n.id) epollDel n.id).clients =
        (done ++ (n.check s.fs (timeouts n.id)).toList) ++ todo := by
      rw [hclients₁, hclients, List.filterMap_append, hsame done fun m hm => hother m (Or.inl hm),
        List.filterMap_cons, if_pos rfl, hsame todo fun m hm => hother m (Or.inr hm)]
      cases n.check s.fs (timeouts n.id) <;> simp
    obtain ⟨hup₂, hfs₂, hclients₂⟩ := ih _ htidy₁ hup₁ hrest
    refine ⟨hup₂, hfs₂.trans hfs₁, hclients₂.trans ?_⟩
    rw [hfs₁, List.filterMap_cons]
    cases n.check s.fs (timeouts n.id) <;> simp

/-- **What a sweep leaves** of the clients, in the order of the list: the check of each is that of the
client alone, and those that are dropped are missing. -/
theorem Tidy.sweep (h : Tidy s) (hup : s.down = none) {timeouts : Nat → Sys}
    (hctl : ∀ id fd, (timeouts id).epollCtl fd = true) (hdel : ∀ fd, epollDel fd = true) :
    (s.checkClientsTimeout timeouts epollDel).down = none ∧
      (s.checkClientsTimeout timeouts epollDel).fs = s.fs ∧
      (s.checkClientsTimeout timeouts epollDel).clients =
        s.clients.filterMap fun n => n.check s.fs (timeouts n.id) :=
  Tidy.foldl_checkClient hctl hdel s.clients [] h hup rfl

/-- A client that the sweep leaves has time.  Otherwise its timeout would have been answered or it would
have been dropped. -/
theorem not_expired_of_check {n m : ClientNode} {fs : FileSystem} {sys : Sys}
    (hctl : ∀ fd, sys.epollCtl fd = true) (h : n.check fs sys = some m) :
    ¬ m.client.Expired sys.now ∧ m.client.context.world.fs = fs := by
  have hchecked := (n.current fs).checked_timeoutCheck hctl
  have hfs := (Client.idles_timeoutCheck (n.current fs) sys).fs
  unfold ClientNode.check at h
  generalize (n.current fs).timeoutCheck sys = r at h hchecked hfs
  cases hchecked with
  | keeps hkeeps =>
    cases h
    exact ⟨hkeeps, rfl⟩
  | drops => cases h
  | answers _ hfresh =>
    cases h
    exact ⟨hfresh, hfs⟩

/-- A sweep at which no timeout has run out changes nothing. -/
theorem Sound.sweep_eq (h : Sound s) (hup : s.down = none) {timeouts : Nat → Sys}
    (hfresh : ∀ n ∈ s.clients, ¬ n.client.Expired (timeouts n.id).now ∧
      n.client.context.world.fs = s.fs) : s.checkClientsTimeout timeouts epollDel = s := by
  have hcheck : ∀ n ∈ s.clients, s.checkClient (timeouts n.id) epollDel n.id = s := by
    intro n hn
    obtain ⟨htime, hfs⟩ := hfresh n hn
    have hcurrent : n.current s.fs = n.client := by
      rw [ClientNode.current, ← hfs]
      rfl
    have hkeeps : (n.current s.fs).timeoutCheck (timeouts n.id) = (.reqContinue, n.client) := by
      rw [hcurrent]
      unfold Client.timeoutCheck
      rw [if_neg fun hheader => htime (Or.inl hheader),
        if_neg fun hbody => htime (Or.inr (Or.inl hbody)),
        if_neg fun hsend => htime (Or.inr (Or.inr hsend))]
    have hself : s.setClient n.id n.client = s := by
      have hmap : s.clients.map (fun m => if m.id = n.id then { m with client := n.client } else m) =
          s.clients := by
        refine (List.map_congr_left fun m hm => ?_).trans (List.map_id _)
        split_ifs with hid
        · rw [h.eq_of_id hm hn hid]
          rfl
        · rfl
      unfold EventLoop.setClient
      rw [hmap]
    unfold EventLoop.checkClient
    rw [if_neg (by rw [hup]; exact Bool.false_ne_true),
      call_timeoutCheck (h.client?_of_mem hn) _ (fun _ hret => Ret.noConfusion hret) hkeeps]
    exact hself
  have hfold : ∀ ids : List Nat, (∀ id ∈ ids, s.checkClient (timeouts id) epollDel id = s) →
      ids.foldl (fun s id => s.checkClient (timeouts id) epollDel id) s = s := by
    intro ids hall
    induction ids with
    | nil => rfl
    | cons id ids ih =>
      rw [List.foldl_cons, hall id (List.mem_cons_self ..)]
      exact ih fun id' hid' => hall id' (List.mem_cons_of_mem _ hid')
  refine hfold _ fun id hid => ?_
  obtain ⟨n, hn, rfl⟩ := List.mem_map.mp hid
  exact hcheck n hn

end Sweep

/-- **The timeout sweep.**  In any state that the loop of the server reaches, with a kernel that registers
what it is asked to: a sweep throws nothing, comes to every client once, and leaves the others in their
order.  What it does to a client is `Client.Checked`: nothing, unless a timeout of it has run out; else
it drops it, or answers it with 408 or 504.  No client that is left has run out of time, so that a
second sweep at the same time changes nothing. -/
theorem sweep_serve (server : Server) (fs : FileSystem) (its : List Iteration)
    (hregisters : ∀ it ∈ its, it.Registers) (hup : ((start server fs).serve its).down = none)
    (timeouts : Nat → Sys) (epollDel : Fd → Bool) (now : Int) (hnow : ∀ id, (timeouts id).now = now)
    (hctl : ∀ id fd, (timeouts id).epollCtl fd = true) (hdel : ∀ fd, epollDel fd = true) :
    let s := (start server fs).serve its
    let s' := s.checkClientsTimeout timeouts epollDel
    s'.down = none ∧ s'.clients = s.clients.filterMap (fun n => n.check s.fs (timeouts n.id)) ∧
      (∀ n ∈ s.clients, Client.Checked (n.current s.fs) (timeouts n.id)
        ((n.current s.fs).timeoutCheck (timeouts n.id))) ∧
      (∀ n ∈ s'.clients, ¬ n.client.Expired now) ∧
      ∀ timeouts' epollDel', (∀ id, (timeouts' id).now = now) →
        s'.checkClientsTimeout timeouts' epollDel' = s' := by
  have htidy : Tidy ((start server fs).serve its) := (tidy_start server fs).serve hregisters
  generalize (start server fs).serve its = s at htidy hup
  obtain ⟨hup', hfs', hclients'⟩ := htidy.sweep hup hctl hdel
  have hafter : Tidy (s.checkClientsTimeout timeouts epollDel) :=
    htidy.checkClientsTimeout hctl hdel
  have hfresh : ∀ n ∈ (s.checkClientsTimeout timeouts epollDel).clients,
      ¬ n.client.Expired now ∧ n.client.context.world.fs = s.fs := by
    intro n hn
    rw [hclients', List.mem_filterMap] at hn
    obtain ⟨m, -, hm⟩ := hn
    have hleft := not_expired_of_check (hctl m.id) hm
    rwa [hnow] at hleft
  refine ⟨hup', hclients', fun n _ => (n.current s.fs).checked_timeoutCheck (hctl n.id),
    fun n hn => (hfresh n hn).1, fun timeouts' epollDel' hnow' => ?_⟩
  refine hafter.toSound.sweep_eq hup' fun n hn => ?_
  rw [hnow', hfs']
  exact hfresh n hn

/-- A client comes to a server whose timeouts are ten seconds, and says nothing. -/
def waitingServer : EventLoop :=
  (start (.single 3 { locations := [Client.fileLocation] } fun _ => 10) Client.fileSystem).serve
    [.quiet [⟨3, false, true, false⟩] (some 4) (.quiet 0) false]

set_option maxRecDepth 10000 in
/-- The client has waited for more than ten seconds, and is answered with 408. -/
theorem sweep_serve_waiting :
    let s := waitingServer.checkClientsTimeout (fun _ => .quiet 100) fun _ => true
    s.clients.map (fun n => n.client.context.response.statusCode) = [statusRequestTimeout] ∧
      ∀ n ∈ s.clients, ¬ n.client.Expired 100 := by
  refine ⟨by decide, (sweep_serve _ _ _ (fun it hit => ?_) (by decide) (fun _ => .quiet 100)
    (fun _ => true) 100 (fun _ => rfl) (fun _ _ => rfl) fun _ => rfl).2.2.2.1⟩
  rw [List.mem_singleton.mp hit]
  exact Iteration.registers_quiet _ _ (fun _ => rfl) _

end EventLoop
end Webserv
