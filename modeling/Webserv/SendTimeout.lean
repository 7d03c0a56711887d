import Webserv.Calls
import Webserv.ResponseStream

/-!
# The send timeout

`Client::timeoutCheck` drops a client whose send timeout expires, unless its request object says that the
CGI is silent.  The flag is set for every request object, with or without a CGI, so that a request that
never had one is answered with 504, again and again.

* `sendExpires`: the third test of `timeoutCheck` is reached, and holds.
* `expiries`: the expiries in a sequence of sweeps.
* `timeoutCheck_done_iff`: which sweeps end the connection.
* `sendTimeout_iff`: when an expiry ends the connection.

## Why a sequence of sweeps

One expiry that is answered with 504 instead of an end may still be as intended, for a CGI that says
nothing: the client learns that the gateway is late.  Whether it ends at last is a matter of the following
sweeps.  So the second half of the statement looks at all sweeps from a state on, without any other event,
and at the answers to those on which the timeout expires.  The list should have one 504 at most, and then
the end.  For a silent object every element is a 504, however long the list is.

## Why the flag decides

`_cgiSilent` is true from the constructor on and becomes false when output of a CGI is passed on.  Without a
CGI nobody makes it false.  A sweep changes neither the flag nor the request object, so the answers of a
sequence are all of one kind.  The only clients without the flag are those that have no object, because they
were refused before one was built; for these an expiry ends the connection at once.  The body timeout is
tested before, and answers 408 where it is due.
-/

namespace Webserv
namespace Client

/-! ## One sweep -/

/-- Neither of the first two tests of `timeoutCheck` holds, and the third does. -/
def sendExpires (c : Client) (now : Int) : Bool :=
  !c.headerTimeout now && !c.bodyTimeout now && c.sendTimeout now

/-- The branches that respond do not end the connection, so only the third test can. -/
theorem respondTimeout_ne_done (c : Client) (sys : Sys) : (c.respondTimeout sys).1 ≠ .reqDone := by
  unfold respondTimeout switchToWrite
  dsimp only
  split_ifs <;> exact fun hdone => nomatch hdone

/-- A sweep ends the connection exactly on an expiry of the send timeout after the CGI has spoken. -/
theorem timeoutCheck_done_iff (c : Client) (sys : Sys) :
    (c.timeoutCheck sys).1 = .reqDone ↔ c.sendExpires sys.now = true ∧ c.hasSpoken = true := by
  unfold timeoutCheck sendExpires
  split_ifs with hheader hbody hsend hspoken
  · simp [hheader, respondTimeout_ne_done]
  · simp [hbody, respondTimeout_ne_done]
  · simp [hheader, hbody, hsend, hspoken]
  · simp [hspoken, respondTimeout_ne_done]
  · simp [hsend]

/-- A sweep leaves the request object alone. -/
theorem request_timeoutCheck (c : Client) (sys : Sys) :
    (c.timeoutCheck sys).2.request = c.request := by
  have hswitch : ∀ c₁ : Client, (c₁.switchToWrite sys).2.request = c₁.request := by
    intro c₁
    rcases switchToWrite_cases c₁ sys with heq | heq
    · rw [heq]
    · rw [heq]
      rfl
  have hrespond : ∀ c₁ : Client, (c₁.respondTimeout sys).2.request = c₁.request := by
    intro c₁
    unfold respondTimeout
    extract_lets c₂
    obtain ⟨f, heq, -⟩ := loadErrorPage_cases c₂ sys
    rw [heq, hswitch]
    rfl
  unfold timeoutCheck
  split_ifs
  · rw [hrespond]
    rfl
  · rw [hrespond]
    rfl
  · rfl
  · rw [hrespond]
    rfl
  · rfl

theorem hasSpoken_timeoutCheck (c : Client) (sys : Sys) :
    (c.timeoutCheck sys).2.hasSpoken = c.hasSpoken := by
  rw [hasSpoken, hasSpoken, request_timeoutCheck]

/-- The status of a response to a timeout is the one that was set for it. -/
theorem statusCode_respondTimeout (c : Client) (sys : Sys) :
    (c.respondTimeout sys).2.context.response.statusCode = c.context.response.statusCode := by
  unfold respondTimeout
  extract_lets c₁
  obtain ⟨f, heq, hstatus, -⟩ := loadErrorPage_cases c₁ sys
  rw [heq]
  rcases switchToWrite_cases (c₁.withPage f).render sys with hswitch | hswitch <;> rw [hswitch] <;>
    exact hstatus

/-- An expiry for a silent request object makes the response a 504. -/
theorem statusCode_of_silent {c : Client} {sys : Sys} (hexpires : c.sendExpires sys.now = true)
    (hsilent : c.hasSpoken = false) :
    (c.timeoutCheck sys).2.context.response.statusCode = statusGatewayTimeout := by
  rw [sendExpires, Bool.and_eq_true, Bool.and_eq_true, Bool.not_eq_true', Bool.not_eq_true'] at hexpires
  obtain ⟨⟨hheader, hbody⟩, hsend⟩ := hexpires
  unfold timeoutCheck
  rw [if_neg (Bool.eq_false_iff.mp hheader), if_neg (Bool.eq_false_iff.mp hbody), if_pos hsend,
    if_neg (Bool.eq_false_iff.mp hsilent), statusCode_respondTimeout]
  rfl

/-! ## Sequences of sweeps -/

/-- The sweeps on which the send timeout expires, each with the client before it, in a sequence of
sweeps without another event. -/
def expiries : Client → List Sys → List (Client × Sys)
  | _, [] => []
  | c, sys :: sweeps =>
    if c.closed then []
    else if c.sendExpires sys.now then (c, sys) :: expiries (c.step (.timeoutCheck sys)) sweeps
    else expiries (c.step (.timeoutCheck sys)) sweeps

/-- The answer of a sweep, and the status after it. -/
def answer (e : Client × Sys) : Ret × Nat :=
  ((e.1.timeoutCheck e.2).1, (e.1.timeoutCheck e.2).2.context.response.statusCode)

/-- The answer to an expiry is a 504, and the connection goes on. -/
def Answers504 (answer : Ret × Nat) : Prop :=
  answer.1 ≠ .reqDone ∧ answer.2 = statusGatewayTimeout

/-- At most one expiry is answered with 504, and the next one ends the connection. -/
def EndsAfter504 (answers : List (Ret × Nat)) : Prop :=
  (∀ before a between b after, answers = before ++ a :: between ++ b :: after →
      Answers504 a → ¬ Answers504 b) ∧
    ∀ before a b after, answers = before ++ a :: b :: after → Answers504 a → b.1 = .reqDone

theorem hasSpoken_step (c : Client) (sys : Sys) :
    (c.step (.timeoutCheck sys)).hasSpoken = c.hasSpoken := by
  unfold step
  by_cases hclosed : c.closed = true
  · rw [if_pos hclosed]
  · rw [if_neg hclosed]
    exact hasSpoken_timeoutCheck c sys

/-- Every expiry in a sequence of sweeps is one of a client with the same silent flag. -/
theorem of_mem_expiries {c : Client} {sweeps : List Sys} {e : Client × Sys}
    (h : e ∈ c.expiries sweeps) : e.1.sendExpires e.2.now = true ∧ e.1.hasSpoken = c.hasSpoken := by
  induction sweeps generalizing c with
  | nil => cases h
  | cons sys sweeps ih =>
    unfold expiries at h
    split_ifs at h with hclosed hexpires
    · cases h
    · rcases List.mem_cons.mp h with rfl | h
      · exact ⟨hexpires, rfl⟩
      · exact ⟨(ih h).1, (ih h).2.trans (hasSpoken_step c sys)⟩
    · exact ⟨(ih h).1, (ih h).2.trans (hasSpoken_step c sys)⟩

/-- The expiries of a silent request object are all answered with 504. -/
theorem answers504_of_silent {c : Client} (hsilent : c.hasSpoken = false) (sweeps : List Sys) :
    ∀ a ∈ (c.expiries sweeps).map answer, Answers504 a := by
  intro a hmem
  obtain ⟨e, he, rfl⟩ := List.mem_map.mp hmem
  obtain ⟨hexpires, hsame⟩ := of_mem_expiries he
  refine ⟨fun hdone => ?_, statusCode_of_silent hexpires (hsame.trans hsilent)⟩
  have hspoken := ((timeoutCheck_done_iff e.1 e.2).mp hdone).2
  rw [hsame, hsilent] at hspoken
  cases hspoken

/-- Without a silent request object every expiry ends the connection. -/
theorem done_of_spoken {c : Client} (hspoken : c.hasSpoken = true) (sweeps : List Sys) :
    ∀ a ∈ (c.expiries sweeps).map answer, a.1 = .reqDone := by
  intro a hmem
  obtain ⟨e, he, rfl⟩ := List.mem_map.mp hmem
  obtain ⟨hexpires, hsame⟩ := of_mem_expiries he
  exact (timeoutCheck_done_iff e.1 e.2).mpr ⟨hexpires, hsame.trans hspoken⟩

theorem endsAfter504_iff (c : Client) (sweeps : List Sys) :
    EndsAfter504 ((c.expiries sweeps).map answer) ↔
      c.hasSpoken = true ∨ (c.expiries sweeps).length ≤ 1 := by
  rw [← List.length_map answer]
  constructor
  · intro hends
    by_contra hnot
    obtain ⟨hsilent, hlength⟩ := not_or.mp hnot
    have hall := answers504_of_silent (Bool.eq_false_iff.mpr hsilent) sweeps
    match hanswers : (c.expiries sweeps).map answer with
    | [] => simp [hanswers] at hlength
    | [_] => simp [hanswers] at hlength
    | a :: b :: after =>
      rw [hanswers] at hends hall
      exact hends.1 [] a [] b after rfl (hall a (by simp)) (hall b (by simp))
  · rintro (hspoken | hlength)
    · have hall := done_of_spoken hspoken sweeps
      refine ⟨fun before a between b after heq ha => ?_, fun before a b after heq ha => ?_⟩
      · exact absurd (hall a (by rw [heq]; simp)) ha.1
      · exact absurd (hall a (by rw [heq]; simp)) ha.1
    · refine ⟨fun before a between b after heq => ?_, fun before a b after heq => ?_⟩
      · rw [heq] at hlength
        simp only [List.length_append, List.length_cons] at hlength
        omega
      · rw [heq] at hlength
        simp only [List.length_append, List.length_cons] at hlength
        omega

/-! ## Reachable clients -/

/-- **When the send timeout ends a connection.**  In a reachable state without a CGI, an expired send
timeout ends the connection exactly when there is no request object and the body timeout is not due;
and in a sequence of sweeps from any state at most one expiry is answered with 504, before one that
ends the connection, exactly when there is no request object with the silent flag, or at most one
expiry. -/
theorem sendTimeout_iff (server : Server) (fs : FileSystem) (connectSocket fd : Fd) (now : Int)
    (es : List Event) :
    (∀ sys, ((init server fs connectSocket fd now).run es).sendTimeout sys.now = true →
        ((init server fs connectSocket fd now).run es).context.cgiSocket = -1 →
        ((((init server fs connectSocket fd now).run es).timeoutCheck sys).1 = .reqDone ↔
          ((init server fs connectSocket fd now).run es).request = none ∧
            ((init server fs connectSocket fd now).run es).bodyTimeout sys.now = false)) ∧
      ∀ (c : Client) (sweeps : List Sys),
        EndsAfter504 ((c.expiries sweeps).map answer) ↔
          c.hasSpoken = true ∨ (c.expiries sweeps).length ≤ 1 := by
  refine ⟨fun sys hsend hnone => ?_, endsAfter504_iff⟩
  obtain ⟨horderly, hsilent⟩ := mute_run server fs connectSocket fd now es
  generalize (init server fs connectSocket fd now).run es = c at hsend hnone horderly hsilent ⊢
  have hread := horderly.resolve_left fun hawaits => hawaits.not_sendTimeout sys.now hsend
  have hheader : c.headerTimeout sys.now = false :=
    Bool.eq_false_iff.mpr (not_headerTimeout hread sys.now)
  have hspoken : c.hasSpoken = true ↔ c.request = none := by
    rw [hasSpoken]
    cases hrequest : c.request with
    | none => simp
    | some request => simp [hsilent hnone request hrequest]
  rw [timeoutCheck_done_iff, hspoken, sendExpires, hheader, hsend]
  cases c.bodyTimeout sys.now <;> simp

/-! ## A file whose response is not read -/

/-- A server with a send timeout of one second. -/
def timedServer : Server :=
  .single 3 { locations := [fileLocation] } fun | .send => 1 | _ => 0

/-- The client has sent a request for a file. -/
def timedClient : Client :=
  (init timedServer fileSystem 3 4 0).run [.clientIn (.receiving fileRequest)]

/-- The client asks for a method that does not exist, and is refused without a request object. -/
def refusedClient : Client :=
  (init timedServer fileSystem 3 4 0).run [.clientIn (.receiving (bytes "X / HTTP/1.1\r\n"))]

set_option maxRecDepth 10000 in
theorem sendTimeout_iff_refused :
    refusedClient.request.isNone = true ∧ (refusedClient.timeoutCheck (.quiet 1)).1 = .reqDone :=
  ⟨by decide, ((sendTimeout_iff timedServer fileSystem 3 4 0
    [.clientIn (.receiving (bytes "X / HTTP/1.1\r\n"))]).1 (.quiet 1) (by decide) (by decide)).mpr
      ⟨by decide, by decide⟩⟩

set_option maxRecDepth 10000 in
/-- No byte of the file is ever sent, and no CGI is attached: each second there is another 504. -/
theorem not_sendTimeout :
    timedClient.context.cgiSocket = -1 ∧ timedClient.sendTimeout 1 = true ∧
      (timedClient.timeoutCheck (.quiet 1)).1 = .reqContinue ∧
      (timedClient.expiries [.quiet 1, .quiet 2]).map answer = [(.reqContinue, 504), (.reqContinue, 504)] ∧
      ¬ EndsAfter504 ((timedClient.expiries [.quiet 1, .quiet 2]).map answer) := by
  have hanswers : (timedClient.expiries [.quiet 1, .quiet 2]).map answer =
      [(.reqContinue, 504), (.reqContinue, 504)] := by decide
  refine ⟨by decide, by decide, by decide, hanswers, fun hends => ?_⟩
  rw [hanswers] at hends
  exact hends.1 [] _ [] _ [] rfl ⟨by decide, rfl⟩ ⟨by decide, rfl⟩

end Client
end Webserv
