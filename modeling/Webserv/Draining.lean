import Webserv.Effects.Output
import Webserv.HeadFirst

/-!
# Draining a response

The client socket can be written, and nothing else happens.  Each call of `handleOut` reads a part of the
response that is still to come, if there is one, and sends a part of what waits.  It answers `REQ_DONE` when
nothing waits and all four work flags are set, and it can set only one of them.

* `Drains`: `handleOut` answers `REQ_DONE` after finitely many calls.
* `Finishes`: the states that will be drained.
* `owed`: the calls until the last part is read, at most.
* `drains_iff`: which states are drained.

## Why termination needs two measures

A call may read a part of the body and send fewer bytes than it has read, so the buffer can grow while the
response comes to its end.  Nothing decreases in every call.  But the reading ends on its own: a file has a
finite number of bytes and a directory a finite number of entries, each part takes at least one of them, and
when a directory cannot be read there is an error page in its place.  `owed` counts these parts.  When it is
used up, `WORK_OUT` is set, the buffer gets nothing more, and its length decreases with every call, because
`send` takes at least one byte.  The two lemmas follow this order: `drains_of_workComplete` is an induction
on the bytes that wait, and `drains_of_finishes` one on what is owed, which ends in the first.

## Why three flags are a condition

`isWorkComplete` asks for four flags.  `handleOut` sets `WORK_OUT` and nothing else; The others are set by
the constructors of the requests, by the body readers, by the handlers of the CGI's socket, and by the
errors that complete all work.  A state in which one of the three is unset is therefore never drained by
`handleOut` alone, and this is the converse of the theorem: after every call the flag is still unset, so the
answer is not `REQ_DONE`.  One such state is that of a client whose request object was never built, and
which is answered with a custom error page.
-/

namespace Webserv

/-- The client takes at least one byte.  A peer that takes none makes no progress, and no bound on the calls
could hold. -/
def Sys.Accepts (sys : Sys) : Prop := ∃ n, 1 ≤ n ∧ sys.send = .accepted n

namespace Client

/-- `handleOut` is called again and again, each time with its own answers of the kernel, and answers
`REQ_DONE` at last. -/
inductive Drains : Client → (Nat → Sys) → Prop where
  | done {c : Client} {answers : Nat → Sys} (h : (c.handleSocketOut (answers 0)).1 = .reqDone) :
      Drains c answers
  | next {c : Client} {answers : Nat → Sys} (h : (c.handleSocketOut (answers 0)).1 = .reqContinue)
      (hrest : Drains (c.handleSocketOut (answers 0)).2 fun n => answers (n + 1)) : Drains c answers

/-- A part of the response is still to be read: the error page, or what the request object reads. -/
def HasSource (c : Client) : Prop :=
  c.hasError = true ∨ ∃ r ∈ c.request, r.kind = .post ∨ r.kind = .get ∧
    (r.path.isFileFormat = true ∨ r.path.isDirFormat = true ∧ r.directory.isSome = true)

/-- `handleOut` sets `WORK_OUT` and no other flag: the other three are set, and a response without
`WORK_OUT` has something left to read. -/
structure Finishes (c : Client) : Prop where
  workIn : c.context.requestState.workIn = true
  cgiIn : c.context.requestState.cgiIn = true
  cgiOut : c.context.requestState.cgiOut = true
  workOut : c.context.requestState.workOut = true ∨ c.HasSource

/-- The bytes and the directory entries that are not read, of the error page and of the request object
together. -/
def unread (c : Client) : Nat :=
  c.errorPage.rest.length +
    match c.request with
    | none => 0
    | some r => r.input.rest.length + (r.directory.getD []).length

theorem isWorkComplete_iff (c : Client) : c.context.requestState.isWorkComplete = true ↔
    c.Finishes ∧ c.context.requestState.workOut = true := by
  simp only [RequestState.isWorkComplete, Bool.and_eq_true]
  constructor
  · rintro ⟨⟨⟨hin, hout⟩, hcgiIn⟩, hcgiOut⟩
    exact ⟨⟨hin, hcgiIn, hcgiOut, Or.inl hout⟩, hout⟩
  · rintro ⟨⟨hin, hcgiIn, hcgiOut, -⟩, hout⟩
    exact ⟨⟨⟨hin, hout⟩, hcgiIn⟩, hcgiOut⟩

/-- A bound for the calls until the last part is read.  A directory that cannot be read becomes an
error. -/
def owed (c : Client) : Nat :=
  if c.context.requestState.workOut then 0 else c.unread + if c.hasError then 1 else 2

/-! ## Sending -/

/-- What `_sendResponse` leaves alone, and at least one byte less that waits, if any did. -/
structure Sends (c c' : Client) : Prop where
  requestState : c'.context.requestState = c.context.requestState
  response : c'.context.response = c.context.response
  request : c'.request = c.request
  errorPage : c'.errorPage = c.errorPage
  length : c'.context.responseBuffer.length ≤ c.context.responseBuffer.length - 1

theorem sends_sendResponse (c : Client) {sys : Sys} (h : sys.Accepts) :
    ∃ c', c.sendResponse sys = (c'.sendRet, c') ∧ c.Sends c' := by
  obtain ⟨n, hn, hsend⟩ := h
  unfold sendResponse
  dsimp only
  rw [hsend]
  split_ifs with hsize
  · refine ⟨_, rfl, ?_⟩
    unfold takeResponse
    refine ⟨by split_ifs <;> rfl, by split_ifs <;> rfl, by split_ifs <;> rfl, by split_ifs <;> rfl, ?_⟩
    have hbuffer : (if min n (min reqBufferSize c.context.responseBuffer.length) > 0 then
        c.touch .send sys.now else c).context = c.context := by
      split_ifs <;> rfl
    dsimp only
    rw [hbuffer, BinaryBuffer.erase_zero, List.length_drop]
    omega
  · have hpositive : 0 < reqBufferSize := by decide
    exact ⟨c, rfl, rfl, rfl, rfl, rfl, by omega⟩

theorem Sends.hasError {c c' : Client} (h : c.Sends c') : c'.hasError = c.hasError := by
  rw [Client.hasError, Client.hasError, h.response]

theorem Sends.hasSource {c c' : Client} (h : c.Sends c') : c'.HasSource ↔ c.HasSource := by
  rw [HasSource, HasSource, h.hasError, h.request]

theorem Sends.owed {c c' : Client} (h : c.Sends c') : c'.owed = c.owed := by
  rw [Client.owed, Client.owed, unread, unread, h.hasError, h.request, h.errorPage, h.requestState]

theorem Sends.finishes {c c' : Client} (h : c.Sends c') : c'.Finishes ↔ c.Finishes := by
  constructor
  · rintro ⟨hin, hcgiIn, hcgiOut, hout⟩
    rw [h.requestState] at hin hcgiIn hcgiOut hout
    rw [h.hasSource] at hout
    exact ⟨hin, hcgiIn, hcgiOut, hout⟩
  · rintro ⟨hin, hcgiIn, hcgiOut, hout⟩
    rw [← h.requestState] at hin hcgiIn hcgiOut hout
    rw [← h.hasSource] at hout
    exact ⟨hin, hcgiIn, hcgiOut, hout⟩

theorem sendRet_eq_reqDone_iff (c : Client) :
    c.sendRet = .reqDone ↔ c.context.responseBuffer = [] ∧ c.context.requestState.isWorkComplete := by
  unfold sendRet
  split_ifs with h
  · exact ⟨fun _ => h, fun _ => rfl⟩
  · exact ⟨nofun, fun h' => absurd h' h⟩

theorem sendRet_cases (c : Client) : c.sendRet = .reqDone ∨ c.sendRet = .reqContinue := by
  unfold sendRet
  split_ifs
  · exact Or.inl rfl
  · exact Or.inr rfl

/-! ## Reading the next part -/

/-- A part is read: one part less is owed, or it was the last one. -/
structure Reads (c c' : Client) : Prop where
  workIn : c'.context.requestState.workIn = c.context.requestState.workIn
  cgiIn : c'.context.requestState.cgiIn = c.context.requestState.cgiIn
  cgiOut : c'.context.requestState.cgiOut = c.context.requestState.cgiOut
  workOut : c'.context.requestState.workOut = true ∨ c'.HasSource
  owed : c'.owed < c.owed

theorem Reads.finishes {c c' : Client} (h : c.Reads c') (hfinishes : c.Finishes) : c'.Finishes :=
  ⟨h.workIn.trans hfinishes.workIn, h.cgiIn.trans hfinishes.cgiIn, h.cgiOut.trans hfinishes.cgiOut,
    h.workOut⟩

theorem length_read {s : IStream} {n : Nat} (hne : (s.read n).1 ≠ []) :
    (s.read n).2.rest.length < s.rest.length := by
  unfold IStream.read at hne ⊢
  split_ifs at hne ⊢ with hopen
  · have htake : 0 < (s.rest.take n).length := List.length_pos_iff.mpr hne
    rw [List.length_take] at htake
    rw [List.length_drop]
    omega
  · exact absurd rfl hne

theorem owed_of_workOut {c : Client} (h : c.context.requestState.workOut = true) : c.owed = 0 :=
  if_pos h

theorem owed_of_not_workOut {c : Client} (h : c.context.requestState.workOut = false) :
    c.owed = c.unread + if c.hasError then 1 else 2 := by
  rw [owed, h]
  rfl

/-- A state with `WORK_OUT` unset owes more than the one after it: the flag is set, or something was
read, or an error was found. -/
theorem owed_lt {c c' : Client} (hout : c.context.requestState.workOut = false)
    (hlt : c'.context.requestState.workOut = true ∨
      c'.unread < c.unread ∧ (c.hasError = true → c'.hasError = true) ∨
      c'.unread = c.unread ∧ c.hasError = false ∧ c'.hasError = true) : c'.owed < c.owed := by
  have hpositive : 0 < c.owed := by
    rw [owed_of_not_workOut hout]
    split_ifs <;> omega
  cases hout' : c'.context.requestState.workOut with
  | true => rwa [owed_of_workOut hout']
  | false =>
    rw [owed_of_not_workOut hout, owed_of_not_workOut hout']
    rcases hlt with hset | ⟨hunread, herror⟩ | ⟨hsame, hnone, herror⟩
    · rw [hout'] at hset
      cases hset
    · cases hbefore : c.hasError with
      | true =>
        rw [herror hbefore]
        exact Nat.add_lt_add_right hunread 1
      | false =>
        cases c'.hasError <;> simp only [if_true, Bool.false_eq_true, if_false] <;> omega
    · rw [hsame, hnone, herror]
      exact Nat.lt_succ_self _

theorem reads_readErrorPage {c : Client} (hout : c.context.requestState.workOut = false)
    (herror : c.hasError = true) : c.Reads c.readErrorPage := by
  unfold readErrorPage
  dsimp only
  split_ifs with hend
  · exact ⟨rfl, rfl, rfl, Or.inl rfl, owed_lt hout (Or.inl rfl)⟩
  · refine ⟨rfl, rfl, rfl, Or.inr (Or.inl herror), owed_lt hout (Or.inr (Or.inl ⟨?_, fun h => h⟩))⟩
    exact Nat.add_lt_add_right (length_read hend) _

theorem unread_of_request {c : Client} {r : ARequest} (h : c.request = some r) :
    c.unread = c.errorPage.rest.length + (r.input.rest.length + (r.directory.getD []).length) := by
  rw [unread, h]

theorem reads_of_getFile {c : Client} {r : ARequest} (hout : c.context.requestState.workOut = false)
    (hrequest : c.request = some r) (hget : r.kind = .get) (hfile : r.path.isFileFormat = true) :
    c.Reads (c.withHandler (Handler.readFile ⟨c.context, r⟩).2) := by
  unfold Handler.readFile
  dsimp only
  split_ifs with hend
  · exact ⟨rfl, rfl, rfl, Or.inl rfl, owed_lt hout (Or.inl rfl)⟩
  · refine ⟨rfl, rfl, rfl, Or.inr (Or.inr ⟨_, rfl, Or.inr ⟨hget, Or.inl hfile⟩⟩),
      owed_lt hout (Or.inr (Or.inl ⟨?_, fun h => h⟩))⟩
    rw [unread_of_request rfl, unread_of_request hrequest]
    exact Nat.add_lt_add_left (Nat.add_lt_add_right (length_read hend) _) _

/-- A batch of a listing that is not the last one takes entries. -/
theorem length_readEntries {row : Bytes → Bytes} {fails : Nat → Bool} :
    ∀ {entries : List Bytes} {count n : Nat} {buffer buffer' : Bytes} {rest : List Bytes},
      Handler.readEntries row fails entries count n buffer = (buffer', .full rest) →
        count < reqDirBufferSize → rest.length < entries.length
  | [], count, n, buffer, buffer', rest, h, hcount => by
    unfold Handler.readEntries at h
    rw [if_neg (by omega)] at h
    split_ifs at h <;> cases h
  | name :: entries, count, n, buffer, buffer', rest, h, hcount => by
    unfold Handler.readEntries at h
    rw [if_neg (by omega)] at h
    by_cases hfails : fails n = true
    · rw [if_pos hfails] at h
      cases h
    rw [if_neg hfails] at h
    dsimp only at h
    by_cases hdot : name = [dot]
    · rw [if_pos hdot] at h
      exact Nat.lt_succ_of_lt (length_readEntries h hcount)
    · rw [if_neg hdot] at h
      by_cases hfull : count + 1 < reqDirBufferSize
      · exact Nat.lt_succ_of_lt (length_readEntries h hfull)
      · unfold Handler.readEntries at h
        rw [if_pos (by omega)] at h
        cases h
        exact Nat.lt_succ_self _

theorem reads_of_getDir {c : Client} {r : ARequest} (hout : c.context.requestState.workOut = false)
    (herror : c.hasError = false) (hrequest : c.request = some r) (hget : r.kind = .get)
    (hdir : r.path.isDirFormat = true) (hopen : r.directory.isSome = true) (sys : Sys) :
    (∀ fault, (Handler.readDir sys ⟨c.context, r⟩).1 ≠ .throws fault) ∧
      c.Reads (c.withHandler (Handler.readDir sys ⟨c.context, r⟩).2) := by
  obtain ⟨entries, hentries⟩ := Option.isSome_iff_exists.mp hopen
  unfold Handler.readDir
  rw [hentries]
  dsimp only
  cases hbatch : Handler.readEntries (Handler.entryRow sys ⟨c.context, r⟩) sys.readdirFails entries 0 0
    [] with
  | mk buffer batch =>
    cases batch with
    | failed =>
      refine ⟨nofun, rfl, rfl, rfl, Or.inr (Or.inl rfl),
        owed_lt hout (Or.inr (Or.inr ⟨?_, herror, rfl⟩))⟩
      rw [unread_of_request rfl, unread_of_request hrequest]
      rfl
    | full rest =>
      refine ⟨nofun, rfl, rfl, rfl, Or.inr (Or.inr ⟨_, rfl, Or.inr ⟨hget, Or.inr ⟨hdir, rfl⟩⟩⟩),
        owed_lt hout (Or.inr (Or.inl ⟨?_, fun h => ?_⟩))⟩
      · have hlength := length_readEntries hbatch (by decide)
        rw [unread_of_request rfl, unread_of_request hrequest, hentries]
        exact Nat.add_lt_add_left (Nat.add_lt_add_left hlength _) _
      · rw [herror] at h
        cases h
    | last => exact ⟨nofun, rfl, rfl, rfl, Or.inl rfl, owed_lt hout (Or.inl rfl)⟩

theorem readFile_fst (h : Handler) : h.readFile.1 = .reqContinue := by
  unfold Handler.readFile
  dsimp only
  split_ifs <;> rfl

/-- With something to read, the first part of `handleOut` reads it. -/
theorem reads_produce {c : Client} (hout : c.context.requestState.workOut = false) (h : c.HasSource)
    (sys : Sys) : (c.produce sys).1 = .reqContinue ∧ c.Reads (c.produce sys).2 := by
  unfold produce
  rw [RequestState.isWorkOutComplete, hout, if_neg (by simp)]
  cases herror : c.hasError with
  | true =>
    rw [if_pos rfl]
    exact ⟨rfl, reads_readErrorPage hout herror⟩
  | false =>
    rw [if_neg (by simp)]
    obtain ⟨r, hrequest, hkind⟩ := h.resolve_left (by rw [herror]; simp)
    rw [hrequest]
    dsimp only
    unfold Handler.workOut
    rcases hkind with hpost | ⟨hget, hfile | ⟨hdir, hopen⟩⟩
    · dsimp only
      rw [hpost]
      exact ⟨rfl, rfl, rfl, rfl, Or.inl rfl, owed_lt hout (Or.inl rfl)⟩
    · have hreads := reads_of_getFile hout hrequest hget hfile
      have hret := readFile_fst ⟨c.context, r⟩
      dsimp only
      rw [hget]
      unfold Handler.workOutGET
      dsimp only
      rw [if_pos hfile]
      generalize Handler.readFile ⟨c.context, r⟩ = result at hreads hret ⊢
      obtain ⟨ret, h⟩ := result
      cases hret
      exact ⟨rfl, hreads⟩
    · obtain ⟨hret, hreads⟩ := reads_of_getDir hout herror hrequest hget hdir hopen sys
      dsimp only
      rw [hget]
      unfold Handler.workOutGET
      dsimp only
      rw [if_neg (Path.not_isFileFormat hdir), if_pos hdir]
      generalize Handler.readDir sys ⟨c.context, r⟩ = result at hreads hret ⊢
      obtain ⟨ret, h⟩ := result
      cases ret with
      | throws fault => exact absurd rfl (hret fault)
      | _ => exact ⟨rfl, hreads⟩

/-- With nothing to read, the first part of `handleOut` does nothing, or it throws an exception: neither
sets a flag. -/
theorem produce_of_not_hasSource {c : Client} (hout : c.context.requestState.workOut = false)
    (h : ¬ c.HasSource) (sys : Sys) :
    c.produce sys = (.reqContinue, c) ∨ ∃ fault, (c.produce sys).1 = .throws fault := by
  have herror : c.hasError = false := Bool.eq_false_iff.mpr fun herror => h (Or.inl herror)
  unfold produce
  rw [RequestState.isWorkOutComplete, hout, herror, if_neg (by simp), if_neg (by simp)]
  cases hrequest : c.request with
  | none => exact Or.inl rfl
  | some r =>
    have hself : c.withHandler ⟨c.context, r⟩ = c := by
      rw [withHandler, ← hrequest]
    have hget : r.kind = .get → ¬ r.path.isFileFormat = true ∧
        ¬ (r.path.isDirFormat = true ∧ r.directory.isSome = true) := fun hget =>
      ⟨fun hfile => h (Or.inr ⟨r, hrequest, Or.inr ⟨hget, Or.inl hfile⟩⟩),
        fun hdir => h (Or.inr ⟨r, hrequest, Or.inr ⟨hget, Or.inr hdir⟩⟩)⟩
    dsimp only
    unfold Handler.workOut
    cases hkind : r.kind with
    | get =>
      obtain ⟨hfile, hdir⟩ := hget hkind
      dsimp only
      unfold Handler.workOutGET
      dsimp only
      rw [if_neg hfile]
      by_cases hformat : r.path.isDirFormat = true
      · have hnone : r.directory = none := by
          cases hdirectory : r.directory with
          | none => rfl
          | some entries => exact absurd ⟨hformat, by rw [hdirectory]; rfl⟩ hdir
        rw [if_pos hformat]
        unfold Handler.readDir
        dsimp only
        rw [hnone]
        exact Or.inr ⟨_, rfl⟩
      · rw [if_neg hformat]
        exact Or.inl (congrArg (Prod.mk Ret.reqContinue) hself)
    | post => exact absurd (Or.inr ⟨r, hrequest, Or.inl hkind⟩) h
    | delete => exact Or.inr ⟨_, rfl⟩
    | put => exact Or.inr ⟨_, rfl⟩
    | head => exact Or.inr ⟨_, rfl⟩

/-! ## All calls -/

/-- A call of `handleOut` after which part of the response was read. -/
theorem handleSocketOut_of_produce {c c₁ : Client} {sys : Sys} (haccepts : sys.Accepts)
    (h : c.produce sys = (.reqContinue, c₁)) :
    ∃ c', c.handleSocketOut sys = (c'.sendRet, c') ∧ c₁.Sends c' := by
  unfold handleSocketOut
  rw [h]
  exact sends_sendResponse c₁ haccepts

/-- With `WORK_OUT` set nothing more is read.  The rest of the response is in the buffer, and only sending
is left. -/
theorem produce_of_workOut {c : Client} (h : c.context.requestState.workOut = true) (sys : Sys) :
    c.produce sys = (.reqContinue, c) :=
  if_pos h

/-- The answer of a call, and what follows it.  This unfolds the definition by one call, for the induction
on the bytes that are left. -/
theorem Drains.of_handleSocketOut {c c' : Client} {answers : Nat → Sys}
    (h : c.handleSocketOut (answers 0) = (c'.sendRet, c'))
    (hrest : c'.sendRet = .reqContinue → Drains c' fun n => answers (n + 1)) : Drains c answers := by
  rcases sendRet_cases c' with hdone | hcontinue
  · exact .done (by rw [h]; exact hdone)
  · refine .next (by rw [h]; exact hcontinue) ?_
    rw [h]
    exact hrest hcontinue

/-- All flags are set: what waits is sent, at least a byte in each call. -/
theorem drains_of_workComplete (n : Nat) : ∀ {c : Client} {answers : Nat → Sys},
    (∀ i, (answers i).Accepts) → c.context.responseBuffer.length ≤ n →
      c.context.requestState.isWorkComplete = true → Drains c answers := by
  induction n with
  | zero =>
    intro c answers haccepts hlength hcomplete
    obtain ⟨c', heq, hsends⟩ := handleSocketOut_of_produce (haccepts 0)
      (produce_of_workOut (c.isWorkComplete_iff.mp hcomplete).2 (answers 0))
    have hnil : c'.context.responseBuffer = [] :=
      List.eq_nil_of_length_eq_zero (by have := hsends.length; omega)
    have hdone : c'.sendRet = .reqDone :=
      (sendRet_eq_reqDone_iff c').mpr ⟨hnil, by rw [hsends.requestState]; exact hcomplete⟩
    exact .done (by rw [heq]; exact hdone)
  | succ n ih =>
    intro c answers haccepts hlength hcomplete
    obtain ⟨c', heq, hsends⟩ := handleSocketOut_of_produce (haccepts 0)
      (produce_of_workOut (c.isWorkComplete_iff.mp hcomplete).2 (answers 0))
    refine .of_handleSocketOut heq fun _ => ih (fun i => haccepts (i + 1)) ?_ ?_
    · have := hsends.length
      omega
    · rw [hsends.requestState]
      exact hcomplete

/-- The three flags that `handleOut` does not set are set: the rest of the response is read, and then
sent. -/
theorem drains_of_finishes (n : Nat) : ∀ {c : Client} {answers : Nat → Sys},
    (∀ i, (answers i).Accepts) → c.owed ≤ n → c.Finishes → Drains c answers := by
  induction n with
  | zero =>
    intro c answers haccepts howed hfinishes
    refine drains_of_workComplete _ haccepts (le_refl _) (c.isWorkComplete_iff.mpr ⟨hfinishes, ?_⟩)
    cases hout : c.context.requestState.workOut with
    | true => rfl
    | false =>
      rw [owed_of_not_workOut hout] at howed
      split_ifs at howed <;> omega
  | succ n ih =>
    intro c answers haccepts howed hfinishes
    cases hout : c.context.requestState.workOut with
    | true =>
      exact drains_of_workComplete _ haccepts (le_refl _) (c.isWorkComplete_iff.mpr ⟨hfinishes, hout⟩)
    | false =>
      have hsource := hfinishes.workOut.resolve_left (by rw [hout]; simp)
      obtain ⟨hret, hreads⟩ := reads_produce hout hsource (answers 0)
      obtain ⟨c', heq, hsends⟩ := handleSocketOut_of_produce (haccepts 0) (Prod.ext hret rfl)
      refine .of_handleSocketOut heq fun _ => ih (fun i => haccepts (i + 1)) ?_ ?_
      · have hlt : c'.owed < c.owed := by
          rw [hsends.owed]
          exact hreads.owed
        omega
      · exact hsends.finishes.mpr (hreads.finishes hfinishes)

/-- Reading a part, looked at from the state after it. -/
theorem produce_cases (c : Client) (sys : Sys) :
    (∃ c₁, c.produce sys = (.reqContinue, c₁) ∧ (c₁.Finishes → c.Finishes)) ∨
      ∃ fault, (c.produce sys).1 = .throws fault := by
  cases hout : c.context.requestState.workOut with
  | true => exact Or.inl ⟨c, produce_of_workOut hout sys, fun h => h⟩
  | false =>
    by_cases hsource : c.HasSource
    · obtain ⟨hcontinue, hreads⟩ := reads_produce hout hsource sys
      refine Or.inl ⟨_, Prod.ext hcontinue rfl, fun ⟨hin, hcgiIn, hcgiOut, _⟩ => ?_⟩
      exact ⟨hreads.workIn.symm.trans hin, hreads.cgiIn.symm.trans hcgiIn,
        hreads.cgiOut.symm.trans hcgiOut, Or.inr hsource⟩
    · exact (produce_of_not_hasSource hout hsource sys).imp_left fun hproduce => ⟨c, hproduce, fun h => h⟩

/-- The same for a call of `handleOut`. -/
theorem handleSocketOut_cases (c : Client) {sys : Sys} (haccepts : sys.Accepts) :
    (∃ c', c.handleSocketOut sys = (c'.sendRet, c') ∧ (c'.Finishes → c.Finishes)) ∨
      ∃ fault, (c.handleSocketOut sys).1 = .throws fault := by
  rcases c.produce_cases sys with ⟨c₁, hproduce, hback⟩ | ⟨fault, hthrows⟩
  · obtain ⟨c', heq, hsends⟩ := handleSocketOut_of_produce haccepts hproduce
    exact Or.inl ⟨c', heq, fun h => hback (hsends.finishes.mp h)⟩
  · refine Or.inr ⟨fault, ?_⟩
    unfold handleSocketOut
    generalize c.produce sys = r at hthrows
    obtain ⟨ret, c₁⟩ := r
    cases hthrows
    rfl

/-- A response is drained only from a state with the three flags. -/
theorem Drains.finishes {c : Client} {answers : Nat → Sys} (h : Drains c answers)
    (haccepts : ∀ i, (answers i).Accepts) : c.Finishes := by
  induction h with
  | @done c answers hdone =>
    rcases c.handleSocketOut_cases (haccepts 0) with ⟨c', heq, hback⟩ | ⟨fault, hthrows⟩
    · rw [heq, sendRet_eq_reqDone_iff, isWorkComplete_iff] at hdone
      exact hback hdone.2.1
    · rw [hthrows] at hdone
      cases hdone
  | @next c answers hcontinue hrest ih =>
    have hfinishes := ih fun i => haccepts (i + 1)
    rcases c.handleSocketOut_cases (haccepts 0) with ⟨c', heq, hback⟩ | ⟨fault, hthrows⟩
    · rw [heq] at hfinishes
      exact hback hfinishes
    · rw [hthrows] at hcontinue
      cases hcontinue

/-- **Which states are drained.**  With every `send` taking at least one byte, `handleOut` on the client
socket answers `REQ_DONE` after finitely many calls exactly from the states in which `WORK_IN`,
`CGI_IN` and `CGI_OUT` are set, and `WORK_OUT` is set or there is something left to read. -/
theorem drains_iff (c : Client) (answers : Nat → Sys) (haccepts : ∀ i, (answers i).Accepts) :
    Drains c answers ↔ c.Finishes :=
  ⟨fun h => h.finishes haccepts, drains_of_finishes _ haccepts (le_refl _)⟩

theorem accepts_quiet (now : Nat) (h : decide ((now : Int) ≤ timeMax) = true) : (Sys.quiet now h).Accepts :=
  ⟨1, le_refl 1, rfl⟩

set_option maxRecDepth 10000 in
/-- The file is requested, and the response is drained a byte at a time. -/
theorem drains_iff_file :
    Drains (fileClient.run [.clientIn (.receiving fileRequest)]) fun _ => .quiet 0 := by
  have hsome : (fileClient.run [.clientIn (.receiving fileRequest)]).request.isSome = true := by decide
  have hfile : ∀ r ∈ (fileClient.run [.clientIn (.receiving fileRequest)]).request,
      r.kind = .get ∧ r.path.isFileFormat = true := by decide
  obtain ⟨r, hr⟩ := Option.isSome_iff_exists.mp hsome
  exact (drains_iff _ _ fun _ => accepts_quiet 0 _).mpr ⟨by decide, by decide, by decide,
    Or.inr (Or.inr ⟨r, hr, Or.inr ⟨(hfile r hr).1, Or.inl (hfile r hr).2⟩⟩)⟩

/-! ## A page that is not finished -/

set_option maxRecDepth 10000 in
/-- The custom page for 404 is sent, and `handleOut` goes on with nothing to send: nobody has set
`CGI_IN` and `CGI_OUT`. -/
theorem not_drains :
    let c := pageClient.run [.clientIn (.receiving fileRequest)]
    c.context.requestState.isCanWrite = true ∧ c.context.cgiSocket = -1 ∧ c.closed = false ∧
      ¬ Drains c fun _ => .quiet 0 := by
  refine ⟨by decide, by decide, by decide, fun hdrains => ?_⟩
  have hcgiIn := (hdrains.finishes fun _ => accepts_quiet 0 _).cgiIn
  revert hcgiIn
  decide

end Client
end Webserv
