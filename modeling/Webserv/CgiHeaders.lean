import Webserv.CgiResponse

/-!
# The headers and the status of a CGI

The header lines of a CGI are folded into the map of the response, which has one value for each name, and
`Status` is taken out of it at the empty line.

* `find?_cgiResponse`: what the headers of the rendered response are.
* `keepsLines_iff`: when no header line is lost.
* `readCGIStatus`: `cgiStatusToStatus` with the indices that it reads.
* `StatusValue`, `RightStatusLine`: what a `Status` should be, and the status line for a value.
* `rightStatus_iff`: the values that are taken as they should be.

## Why lines get lost

A map has one value for a name, and a later line replaces an earlier one.  For a header that is written once
this is no loss, but `Set-Cookie` is written once for every cookie.  The theorem counts: every line but
`Status` is in the rendered head as often as the CGI wrote it, exactly when the names of these lines differ.
It is about all outputs and all ways to cut them into reads, because the parse of an output does not depend
on the cut (`CgiText`).

## Why the reads are recorded

`cgiStatusToStatus` looks at single characters, `statusHeader[3]` and `[4]` among them, and at first asks
only whether the value is shorter than five.  What it finds behind the end of the string decides nothing in
the model, where such a byte is zero; but the access is one the string does not allow.  `readCGIStatus` is
the same function in a monad that notes each index, and `run_readCGIStatus` says that it computes the same.
An index is within the value when it is at most its length, since the terminating zero may be read.

## What a right status line is

The code of a response has three digits from 100 to 599, and a `Status` is such a code alone, or with a
space and a phrase.  `RightStatusLine` asks for this code and this phrase in the line, and for 500 with its
standard reason where the value is anything else.  The code of the program has its own idea: 999 goes out as
it is, and three digits with something behind them that is no space are accepted.
-/

namespace Webserv

/-! ## Header lines -/

/-- The headers of the rendered response: what was gathered, without `Status`. -/
theorem find?_cgiResponse (headers : StringMap) {k : Bytes} (hk : k ≠ headerStatus) :
    (cgiResponse headers).headers.find? k = headers.find? k := by
  unfold cgiResponse
  dsimp only
  cases headers.find? headerStatus with
  | none => rfl
  | some value => exact OrderedMap.find?_erase_of_ne _ hk

/-- The header lines that are to be sent: all but `Status`. -/
def CgiText.sentFields (t : CgiText) : List (Bytes × Bytes) := t.fields.filter fun f => f.1 ≠ headerStatus

/-- A line with a name of its own is what the look-up sees. -/
theorem CgiText.find?_of_mem_sentFields (t : CgiText) (hnodup : (t.sentFields.map Prod.fst).Nodup)
    {f : Bytes × Bytes} (hf : f ∈ t.sentFields) :
    (cgiResponse (Response.init.headers.insertAll t.fields)).headers.find? f.1 = some f.2 := by
  obtain ⟨hmem, hstatus⟩ := List.mem_filter.mp hf
  have hne : f.1 ≠ headerStatus := by simpa using hstatus
  have hsame : t.fields.filter (fun e => e.1 = f.1) = t.sentFields.filter fun e => e.1 = f.1 := by
    rw [sentFields, List.filter_filter]
    refine List.filter_congr fun e _ => ?_
    by_cases heq : e.1 = f.1
    · simp [heq, hne]
    · simp [heq]
  have hsent : (OrderedMap.empty.insertAll t.sentFields : StringMap).find? f.1 = some f.2 :=
    OrderedMap.find?_insertAll_of_mem hnodup hf _
  rw [find?_cgiResponse _ hne, OrderedMap.find?_insertAll, hsame]
  rw [OrderedMap.find?_insertAll, OrderedMap.find?_empty, Option.or_none] at hsent
  rw [hsent]
  rfl

namespace Handler

/-- **Header lines.**  However the output is cut into reads, every header line but `Status` is in the head
that is sent, as often as it was written, if and only if the names of these lines differ. -/
theorem keepsLines_iff {h : Handler} (hawaits : AwaitsOutput h) (t : CgiText)
    {reads : List (Sys × Packet)} (hreads : bytesOf reads = t.stream) (last : Sys) :
    (receiveAll reads last h).context.responseBuffer =
        (receiveAll reads last h).context.response.head ++ t.body ∧
      ((∀ f ∈ t.fields, f.1 ≠ headerStatus →
          (receiveAll reads last h).context.response.headers.entries.count f = t.fields.count f) ↔
        (t.sentFields.map Prod.fst).Nodup) := by
  obtain ⟨hbuffer, hresponse, -⟩ := hawaits.relays t hreads last
  rw [hresponse]
  refine ⟨hbuffer, ?_⟩
  have hsent : ∀ f, f ∈ t.sentFields ↔ f ∈ t.fields ∧ f.1 ≠ headerStatus := fun f => by
    rw [CgiText.sentFields, List.mem_filter, decide_eq_true_eq]
  have hcount : ∀ f, f.1 ≠ headerStatus → t.sentFields.count f = t.fields.count f := fun f hne =>
    List.count_filter (by simpa using hne)
  constructor
  · intro hkept
    refine OrderedMap.nodup_keys_of_count
      (m := (cgiResponse (Response.init.headers.insertAll t.fields)).headers) fun f hf => ?_
    obtain ⟨hmem, hne⟩ := (hsent f).mp hf
    rw [hcount f hne]
    exact hkept f hmem hne
  · intro hnodup f hmem hne
    have hf := (hsent f).mpr ⟨hmem, hne⟩
    rw [← hcount f hne]
    exact OrderedMap.count_entries_of_find? (List.Nodup.of_map _ hnodup) hf
      (t.find?_of_mem_sentFields hnodup hf)

theorem keepsLines_iff_cut :
    (receiveAll cutReads (.quiet 3) cgiHandler).context.responseBuffer =
        (receiveAll cutReads (.quiet 3) cgiHandler).context.response.head ++ notFoundOutput.text.body ∧
      ((∀ f ∈ notFoundOutput.text.fields, f.1 ≠ headerStatus →
          (receiveAll cutReads (.quiet 3) cgiHandler).context.response.headers.entries.count f =
            notFoundOutput.text.fields.count f) ↔
        (notFoundOutput.text.sentFields.map Prod.fst).Nodup) :=
  keepsLines_iff ⟨rfl, rfl, rfl, rfl, rfl⟩ notFoundOutput.text (by decide) (.quiet 3)

/-- Two cookies. -/
def cookiesText : CgiText where
  fields := [(bytes "Set-Cookie", bytes "a=1"), (bytes "Set-Cookie", bytes "b=2")]
  body := []
  key := by decide
  line := by decide

set_option maxRecDepth 10000 in
/-- The first of two cookies is lost, since `setHeader` overwrites a header of the same name, and a response
may set several cookies. -/
theorem not_keepsLines :
    AwaitsOutput cgiHandler ∧
      bytesOf [(Sys.quiet 0, ⟨cookiesText.stream, by decide, by decide⟩)] = cookiesText.stream ∧
      (receiveAll [(Sys.quiet 0, ⟨cookiesText.stream, by decide, by decide⟩)] (.quiet 1)
        cgiHandler).context.responseBuffer =
          bytes "HTTP/1.1 200 OK\r\nServer: webserv/0.5\r\nSet-Cookie: b=2\r\n\r\n" ∧
      (bytes "Set-Cookie", bytes "a=1") ∈ cookiesText.fields ∧
      (receiveAll [(Sys.quiet 0, ⟨cookiesText.stream, by decide, by decide⟩)] (.quiet 1)
        cgiHandler).context.response.headers.entries.count (bytes "Set-Cookie", bytes "a=1") ≠
          cookiesText.fields.count (bytes "Set-Cookie", bytes "a=1") := by
  refine ⟨⟨rfl, rfl, rfl, rfl, rfl⟩, by decide, ?_, by decide, ?_⟩
  · decide +kernel
  · decide +kernel

/-! ## The value of `Status` -/

/-- `statusHeader[i]`, and the index is noted, so that reads behind the end of the value can be told. -/
def statusHeaderAt (value : Bytes) (i : Nat) : StateM (List Nat) Byte := do
  modify (· ++ [i])
  return value.getD i 0

/-- `cgiStatusToStatus`, and the indices that it reads.  The tests are in the order of the source, so that
an index is noted only when its test is reached. -/
def readCGIStatus (value : Bytes) : StateM (List Nat) (Nat × Bytes) := do
  if value.length < 5 then
    if (← statusHeaderAt value 3) = space then
      if isalpha (← statusHeaderAt value 4) then
        return (statusInternalServerError, value)
  if ¬ isdigit (← statusHeaderAt value 0) then return (statusInternalServerError, value)
  if ¬ isdigit (← statusHeaderAt value 1) then return (statusInternalServerError, value)
  if ¬ isdigit (← statusHeaderAt value 2) then return (statusInternalServerError, value)
  let hundreds := (← statusHeaderAt value 0).toNat - 48
  let tens := (← statusHeaderAt value 1).toNat - 48
  let ones := (← statusHeaderAt value 2).toNat - 48
  return (hundreds * 100 + tens * 10 + ones, value.drop 4)

/-- The indices that `cgiStatusToStatus` reads.  One of them may be behind the end of the value. -/
def cgiStatusReads (value : Bytes) : List Nat := ((readCGIStatus value).run []).run.2

theorem run_ite {α : Type} (p : Prop) [Decidable p] (m m' : StateM (List Nat) α) (reads : List Nat) :
    (if p then m else m').run reads = if p then m.run reads else m'.run reads := by
  split <;> rfl

theorem run_statusHeaderAt (value : Bytes) (i : Nat) (reads : List Nat) :
    (statusHeaderAt value i).run reads = pure (value.getD i 0, reads ++ [i]) := rfl

theorem idRun_ite {α : Type} (p : Prop) [Decidable p] (m m' : Id α) :
    (if p then m else m').run = if p then m.run else m'.run := by
  split <;> rfl

/-- The indices are those of `cgiStatusToStatus`. -/
theorem run_readCGIStatus (value : Bytes) (reads : List Nat) :
    ((readCGIStatus value).run reads).run.1 = cgiStatusToStatus value := by
  unfold readCGIStatus cgiStatusToStatus
  simp only [StateT.run_bind, run_ite, run_statusHeaderAt, pure_bind, StateT.run_pure, idRun_ite,
    Id.run_pure]
  split_ifs <;> simp_all

/-- Nothing is read behind the value when it has three bytes.  A shorter one is read at 3 before its length
is known. -/
theorem cgiStatusReads_le_iff (value : Bytes) :
    (∀ i ∈ cgiStatusReads value, i ≤ value.length) ↔ 3 ≤ value.length := by
  have hspace : value.getD 3 0 = space → 3 < value.length := fun hread => by
    by_contra hshort
    rw [List.getD, List.getElem?_eq_none (by omega)] at hread
    exact absurd hread (by decide)
  unfold cgiStatusReads readCGIStatus
  simp only [StateT.run_bind, run_ite, run_statusHeaderAt, pure_bind, StateT.run_pure, idRun_ite,
    Id.run_pure]
  by_cases hlong : value.length < 5
  · rw [if_pos hlong]
    by_cases hread : value.getD 3 0 = space
    · have hfour := hspace hread
      rw [if_pos hread]
      split_ifs <;> simp <;> omega
    · rw [if_neg hread]
      split_ifs <;> simp <;> omega
  · rw [if_neg hlong]
    split_ifs <;> simp <;> omega

/-- A value of `Status`: a code of three digits alone, or with a space and a phrase behind it. -/
def StatusValue (value : Bytes) (code : Nat) (phrase : Bytes) : Prop :=
  100 ≤ code ∧ code ≤ 599 ∧ (value = decimal code ∧ phrase = [] ∨ value = decimal code ++ space :: phrase)

/-- The status line for a value: its code and its phrase, and 500 when it is no value of `Status`. -/
def RightStatusLine (value line : Bytes) : Prop :=
  (∀ code phrase, StatusValue value code phrase →
      line = bytes "HTTP/1.1 " ++ decimal code ++ [space] ++ phrase ++ crlf) ∧
    ((∀ code phrase, ¬ StatusValue value code phrase) →
      line = bytes "HTTP/1.1 500 Internal Server Error\r\n")

/-- The code and the phrase are taken apart again: the code is printed without a blank, so that the first
blank separates them. -/
theorem statusLine_eq_iff {r r' : Response} :
    r.statusLine = r'.statusLine ↔ r.statusCode = r'.statusCode ∧ r.reasonPhrase = r'.reasonPhrase := by
  have hspace : ∀ n : Nat, space ∉ decimal n := fun n hmem =>
    absurd (isdigit_of_mem_decimal hmem) (by decide)
  constructor
  · intro heq
    unfold Response.statusLine at heq
    rw [numToStr_natCast, numToStr_natCast, List.append_cancel_right_eq] at heq
    simp only [List.append_assoc, List.append_cancel_left_eq, List.singleton_append] at heq
    obtain ⟨hcode, hphrase⟩ := Search.append_cons_inj (hspace _) (hspace _) heq
    exact ⟨Int.ofNat.inj (numToStr_eq_decimal_iff.mp hcode), hphrase⟩
  · rintro ⟨hcode, hphrase⟩
    unfold Response.statusLine
    rw [hcode, hphrase]

/-- A value of three digits, with or without something behind them. -/
theorem cgiStatusToStatus_of_digits {a b c : Byte} {rest : Bytes} (ha : isdigit a = true)
    (hb : isdigit b = true) (hc : isdigit c = true) :
    cgiStatusToStatus (a :: b :: c :: rest) =
      ((a.toNat - 48) * 100 + (b.toNat - 48) * 10 + (c.toNat - 48), rest.drop 1) := by
  have hshort : ¬ ((a :: b :: c :: rest).length < 5 ∧ (a :: b :: c :: rest).getD 3 0 = space ∧
      isalpha ((a :: b :: c :: rest).getD 4 0) = true) := by
    rintro ⟨hlength, hspace, halpha⟩
    cases rest with
    | nil => exact absurd (show (0 : Byte) = space from hspace) (by decide)
    | cons d rest =>
      cases rest with
      | nil => exact absurd (show isalpha (0 : Byte) = true from halpha) (by decide)
      | cons e rest =>
        simp only [List.length_cons] at hlength
        omega
  have hdigits : ¬ (¬ isdigit a = true ∨ ¬ isdigit b = true ∨ ¬ isdigit c = true) := by
    simp [ha, hb, hc]
  unfold cgiStatusToStatus
  dsimp only
  rw [if_neg hshort]
  exact if_neg hdigits

/-- Any other value is a 500, and its own phrase. -/
theorem cgiStatusToStatus_of_not_digits {value : Bytes}
    (h : ¬ isdigit (value.getD 0 0) = true ∨ ¬ isdigit (value.getD 1 0) = true ∨
      ¬ isdigit (value.getD 2 0) = true) :
    cgiStatusToStatus value = (statusInternalServerError, value) := by
  unfold cgiStatusToStatus
  dsimp only
  rw [if_pos h, ite_self]

/-- A code has three digits. -/
theorem decimal_of_code {n : Nat} (hlow : 100 ≤ n) (hhigh : n ≤ 599) : ∃ a b c : Byte,
    decimal n = [a, b, c] ∧ isdigit a = true ∧ isdigit b = true ∧ isdigit c = true ∧
      (a.toNat - 48) * 100 + (b.toNat - 48) * 10 + (c.toNat - 48) = n := by
  have hdigit : ∀ d < 10, String.utf8EncodeChar (Nat.digitChar d) = [UInt8.ofNat (48 + d)] ∧
      isdigit (UInt8.ofNat (48 + d)) = true ∧ (UInt8.ofNat (48 + d)).toNat - 48 = d := by
    decide
  obtain ⟨hwrittenA, ha, hhundreds⟩ := hdigit (n / 10 / 10) (by omega)
  obtain ⟨hwrittenB, hb, htens⟩ := hdigit (n / 10 % 10) (by omega)
  obtain ⟨hwrittenC, hc, hones⟩ := hdigit (n % 10) (by omega)
  have hdigits : Nat.toDigits 10 n =
      [Nat.digitChar (n / 10 / 10), Nat.digitChar (n / 10 % 10), Nat.digitChar (n % 10)] := by
    rw [Nat.toDigits_of_base_le (by decide) (by omega), Nat.toDigits_of_base_le (by decide) (by omega),
      Nat.toDigits_of_lt_base (by omega)]
    rfl
  refine ⟨_, _, _, ?_, ha, hb, hc, by omega⟩
  rw [decimal, bytes, Nat.toList_repr, hdigits, List.flatMap_cons, List.flatMap_cons, List.flatMap_cons,
    hwrittenA, hwrittenB, hwrittenC]
  rfl

/-- A value of `Status` is taken for what it is. -/
theorem StatusValue.cgiStatusToStatus_eq {value phrase : Bytes} {code : Nat}
    (h : StatusValue value code phrase) :
    cgiStatusToStatus value = (code, phrase) ∧ 3 ≤ value.length := by
  obtain ⟨hlow, hhigh, hvalue⟩ := h
  obtain ⟨a, b, c, hdecimal, ha, hb, hc, hcode⟩ := decimal_of_code hlow hhigh
  rw [hdecimal] at hvalue
  rcases hvalue with ⟨rfl, rfl⟩ | rfl
  · rw [cgiStatusToStatus_of_digits ha hb hc, hcode]
    exact ⟨rfl, le_refl 3⟩
  · have hdigits := @cgiStatusToStatus_of_digits a b c (space :: phrase) ha hb hc
    rw [hcode] at hdigits
    exact ⟨hdigits, by simp⟩

/-- The values that give 500 and its standard reason.  The first has no code and stands for its own reason,
the second writes both. -/
theorem cgiStatusToStatus_eq_error_iff {value : Bytes} (hlength : 3 ≤ value.length) :
    cgiStatusToStatus value = (500, bytes "Internal Server Error") ↔
      value = bytes "Internal Server Error" ∨
        ∃ c, value = bytes "500" ++ c :: bytes "Internal Server Error" := by
  have hwritten : ∀ d, bytes "500" ++ d :: bytes "Internal Server Error" =
      53 :: 48 :: 48 :: d :: bytes "Internal Server Error" := fun d => rfl
  match value, hlength with
  | a :: b :: c :: rest, _ =>
    by_cases hdigits : isdigit a = true ∧ isdigit b = true ∧ isdigit c = true
    · obtain ⟨ha, hb, hc⟩ := hdigits
      rw [cgiStatusToStatus_of_digits ha hb hc, Prod.mk.injEq]
      constructor
      · rintro ⟨hcode, hphrase⟩
        have hbounds : ∀ d : Byte, isdigit d = true → 48 ≤ d.toNat ∧ d.toNat ≤ 57 := fun d hd => by
          simpa [isdigit, UInt8.le_iff_toNat_le] using hd
        have ha' := hbounds a ha
        have hb' := hbounds b hb
        have hc' := hbounds c hc
        cases rest with
        | nil => exact absurd hphrase (by decide)
        | cons d rest =>
          obtain rfl : a = 53 := UInt8.toNat_inj.mp (show a.toNat = 53 by omega)
          obtain rfl : b = 48 := UInt8.toNat_inj.mp (show b.toNat = 48 by omega)
          obtain rfl : c = 48 := UInt8.toNat_inj.mp (show c.toNat = 48 by omega)
          refine Or.inr ⟨d, ?_⟩
          rw [← hphrase]
          rfl
      · rintro (hvalue | ⟨d, hvalue⟩)
        · obtain rfl : a = 73 := (List.cons.inj hvalue).1
          exact absurd ha (by decide)
        · obtain ⟨rfl, rfl, rfl, rfl⟩ : a = 53 ∧ b = 48 ∧ c = 48 ∧
              rest = d :: bytes "Internal Server Error" := by
            simpa only [hwritten, List.cons.injEq] using hvalue
          exact ⟨rfl, rfl⟩
    · have hnot : ¬ isdigit a = true ∨ ¬ isdigit b = true ∨ ¬ isdigit c = true := by
        rwa [not_and_or, not_and_or] at hdigits
      rw [@cgiStatusToStatus_of_not_digits (a :: b :: c :: rest) hnot]
      constructor
      · exact fun heq => Or.inl (Prod.mk.inj heq).2
      · rintro (hvalue | ⟨d, hvalue⟩)
        · rw [hvalue]
        · obtain ⟨rfl, rfl, rfl, _⟩ : a = 53 ∧ b = 48 ∧ c = 48 ∧
              rest = d :: bytes "Internal Server Error" := by
            simpa only [hwritten, List.cons.injEq] using hvalue
          exact absurd (by decide) hdigits

/-- The last `Status` of the header lines is the one that counts, because the map has replaced the others. -/
theorem find?_status_of_last {fields before after : List (Bytes × Bytes)} {value : Bytes}
    (hfields : fields = before ++ (headerStatus, value) :: after)
    (hlast : headerStatus ∉ after.map Prod.fst) (m : StringMap) :
    (m.insertAll fields).find? headerStatus = some value := by
  rw [hfields, OrderedMap.insertAll_append]
  exact (OrderedMap.find?_insertAll_of_notMem hlast _).trans (OrderedMap.find?_insert_self _ _ _)

/-- The code and the phrase that a `Status` gives to the response. -/
theorem cgiResponse_of_status {headers : StringMap} {value : Bytes}
    (h : headers.find? headerStatus = some value) :
    (cgiResponse headers).statusCode = (cgiStatusToStatus value).1 ∧
      (cgiResponse headers).reasonPhrase = (cgiStatusToStatus value).2 := by
  unfold cgiResponse
  dsimp only
  rw [h]
  exact ⟨rfl, rfl⟩

/-- **The `Status` of a CGI.**  However the output is cut into reads, the status line is the right one for
the value and nothing behind the value is read, if and only if it is a code of three digits from 100 to 599,
alone or with a phrase, or is refused by chance with the right reason. -/
theorem rightStatus_iff {h : Handler} (hawaits : AwaitsOutput h) (t : CgiText)
    {before after : List (Bytes × Bytes)} {value : Bytes}
    (hfields : t.fields = before ++ (headerStatus, value) :: after)
    (hlast : headerStatus ∉ after.map Prod.fst) {reads : List (Sys × Packet)}
    (hreads : bytesOf reads = t.stream) (last : Sys) :
    (receiveAll reads last h).context.responseBuffer =
        (receiveAll reads last h).context.response.head ++ t.body ∧
      (RightStatusLine value (receiveAll reads last h).context.response.statusLine ∧
          (∀ i ∈ cgiStatusReads value, i ≤ value.length) ↔
        (∃ code phrase, StatusValue value code phrase) ∨ value = bytes "Internal Server Error" ∨
          ∃ c, value = bytes "500" ++ c :: bytes "Internal Server Error") := by
  obtain ⟨hbuffer, hresponse, -⟩ := hawaits.relays t hreads last
  rw [hresponse]
  refine ⟨hbuffer, ?_⟩
  obtain ⟨hcode, hphrase⟩ := cgiResponse_of_status (find?_status_of_last hfields hlast Response.init.headers)
  rw [cgiStatusReads_le_iff]
  by_cases hvalue : ∃ code phrase, StatusValue value code phrase
  · obtain ⟨code, phrase, hstatus⟩ := hvalue
    obtain ⟨htaken, hlength⟩ := hstatus.cgiStatusToStatus_eq
    rw [htaken] at hcode hphrase
    refine iff_of_true ⟨⟨fun code' phrase' hstatus' => ?_, fun hnone => ?_⟩, hlength⟩
      (Or.inl ⟨code, phrase, hstatus⟩)
    · obtain ⟨rfl, rfl⟩ := Prod.mk.inj (htaken.symm.trans hstatus'.cgiStatusToStatus_eq.1)
      unfold Response.statusLine
      rw [hcode, hphrase, numToStr_natCast]
    · exact absurd hstatus (hnone code phrase)
  · have hright : RightStatusLine value
        (cgiResponse (Response.init.headers.insertAll t.fields)).statusLine ↔
          cgiStatusToStatus value = (500, bytes "Internal Server Error") := by
      have herror : bytes "HTTP/1.1 500 Internal Server Error\r\n" =
          (Response.init.setStatusCode statusInternalServerError).statusLine := by decide +kernel
      rw [RightStatusLine, herror, statusLine_eq_iff, hcode, hphrase, Prod.ext_iff]
      constructor
      · exact fun hline => hline.2 fun code phrase hstatus => hvalue ⟨code, phrase, hstatus⟩
      · exact fun hline => ⟨fun code phrase hstatus => absurd ⟨code, phrase, hstatus⟩ hvalue, fun _ => hline⟩
    rw [hright, or_iff_right hvalue]
    constructor
    · rintro ⟨hline, hlength⟩
      exact (cgiStatusToStatus_eq_error_iff hlength).mp hline
    · intro herror
      have hlength : 3 ≤ value.length := by
        rcases herror with rfl | ⟨c, rfl⟩
        · decide
        · rw [List.length_append]
          exact Nat.le_add_right 3 _
      exact ⟨(cgiStatusToStatus_eq_error_iff hlength).mpr herror, hlength⟩

theorem rightStatus_iff_cut :
    (receiveAll cutReads (.quiet 3) cgiHandler).context.responseBuffer =
        (receiveAll cutReads (.quiet 3) cgiHandler).context.response.head ++ notFoundOutput.text.body ∧
      (RightStatusLine (bytes "404 Not here")
          (receiveAll cutReads (.quiet 3) cgiHandler).context.response.statusLine ∧
          (∀ i ∈ cgiStatusReads (bytes "404 Not here"), i ≤ (bytes "404 Not here").length) ↔
        (∃ code phrase, StatusValue (bytes "404 Not here") code phrase) ∨
          bytes "404 Not here" = bytes "Internal Server Error" ∨
          ∃ c, bytes "404 Not here" = bytes "500" ++ c :: bytes "Internal Server Error") :=
  @rightStatus_iff cgiHandler ⟨rfl, rfl, rfl, rfl, rfl⟩ notFoundOutput.text [] [(bytes "X", bytes "y")] _
    rfl (by decide) cutReads (by decide) (.quiet 3)

/-- A `Status` that is no code. -/
def wrongStatusText : CgiText where
  fields := [(headerStatus, bytes "999 x")]
  body := []
  key := by decide
  line := by decide

set_option maxRecDepth 10000 in
/-- The code 999 goes out as it is, and an empty value is read behind its end. -/
theorem not_rightStatus :
    AwaitsOutput cgiHandler ∧
      bytesOf [(Sys.quiet 0, ⟨wrongStatusText.stream, by decide, by decide⟩)] = wrongStatusText.stream ∧
      wrongStatusText.fields = [] ++ (headerStatus, bytes "999 x") :: [] ∧
      (∀ code phrase, ¬ StatusValue (bytes "999 x") code phrase) ∧
      (receiveAll [(Sys.quiet 0, ⟨wrongStatusText.stream, by decide, by decide⟩)] (.quiet 1)
        cgiHandler).context.response.statusLine = bytes "HTTP/1.1 999 x\r\n" ∧
      ¬ RightStatusLine (bytes "999 x")
        (receiveAll [(Sys.quiet 0, ⟨wrongStatusText.stream, by decide, by decide⟩)] (.quiet 1)
          cgiHandler).context.response.statusLine ∧
      3 ∈ cgiStatusReads [] := by
  have hnone : ∀ code phrase, ¬ StatusValue (bytes "999 x") code phrase := by
    rintro code phrase hstatus
    have hcode : (999, bytes "x") = (code, phrase) := hstatus.cgiStatusToStatus_eq.1
    have hhigh := hstatus.2.1
    rw [← (Prod.mk.inj hcode).1] at hhigh
    exact absurd hhigh (by decide)
  have hline : (receiveAll [(Sys.quiet 0, ⟨wrongStatusText.stream, by decide, by decide⟩)] (.quiet 1)
      cgiHandler).context.response.statusLine = bytes "HTTP/1.1 999 x\r\n" := by decide +kernel
  refine ⟨⟨rfl, rfl, rfl, rfl, rfl⟩, by decide, rfl, hnone, hline, ?_, by decide⟩
  rw [hline]
  exact fun hright => absurd (hright.2 hnone) (by decide)

end Handler
end Webserv
