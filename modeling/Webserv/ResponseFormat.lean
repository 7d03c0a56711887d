import Webserv.HeaderLines
import Webserv.CgiResponse

/-!
# The format of a response

`Response::response` writes a status line, a line for each header, an empty line and the body.  Nothing is
escaped: that a peer finds the same parts again rests on what the reason and the headers hold.

* `SingleLine`, `IsName`, `Response.WellFormed`: no line end where the response has none, and no `": "` in
  the name of a header.
* `ReadsAs`: the bytes taken apart at line ends.  There is one reading at most (`ReadsAs.unique`).
* `Response.reading_head`: the one of a well-formed response has its status line, its headers, its body.

## What a line end is

A line ends at CR LF, here as in the parser of the requests.  A peer may be more tolerant and end lines at a
bare LF, as some do.  For such a peer a LF inside a value is a line end, and nothing in this module says
that there is none: `SingleLine` excludes the pair of the two only.  A reading is therefore always one by CR
LF.

## Why there is one reading

A text with line ends in it can be put together from lines in one way, if no line holds a line end itself
and the end of the header block is the first empty line.  `ReadsAs` asks for exactly this, and the
uniqueness is the general fact about such concatenations.  From it follows what is meant by a response that
is not split: whatever a peer reads, if it reads by lines, is what the server has put in.

## Why well-formedness is a structure

A response is changed by a few methods, each of which sets one thing.  `WellFormed` has a condition for
each, so that a method needs a condition on its argument only, and the body, which may hold anything, has
none.
-/

namespace Webserv

open Search (findSub)

/-! ## Lines -/

/-- A text on one line: no CR LF in it, while a bare CR or LF may be. -/
def SingleLine (text : Bytes) : Prop := ¬ crlf <:+: text

instance (text : Bytes) : Decidable (SingleLine text) := inferInstanceAs (Decidable (¬ _))

/-- The name of a header: on one line, and without the separator. -/
structure IsName (name : Bytes) : Prop where
  singleLine : SingleLine name
  no_colon : ¬ bytes ": " <:+: name

instance (name : Bytes) : Decidable (IsName name) :=
  decidable_of_iff (SingleLine name ∧ ¬ bytes ": " <:+: name) ⟨fun h => ⟨h.1, h.2⟩, fun h => ⟨h.1, h.2⟩⟩

namespace SingleLine

variable {text text' : Bytes}

@[simp] theorem nil : SingleLine [] := by decide

theorem of_infix (h : SingleLine text) (hin : text' <:+: text) : SingleLine text' :=
  fun hcrlf => h (hcrlf.trans hin)

theorem take (h : SingleLine text) (n : Nat) : SingleLine (text.take n) :=
  h.of_infix (List.take_prefix n text).isInfix

theorem drop (h : SingleLine text) (n : Nat) : SingleLine (text.drop n) :=
  h.of_infix (List.drop_suffix n text).isInfix

theorem of_notMem (h : cr ∉ text) : SingleLine text := by
  rintro ⟨s, t, rfl⟩
  simp at h

/-- Two texts with a letter between them that is none of the line end. -/
theorem append_cons {c : Byte} (h : SingleLine text) (hcr : cr ≠ c) (hlf : lf ≠ c)
    (h' : SingleLine text') : SingleLine (text ++ c :: text') :=
  fun hcrlf => (Search.infix_of_append_cons hcr hlf hcrlf).elim h h'

end SingleLine

theorem singleLine_numToStr (z : Int) : SingleLine (numToStr z) := by
  have hdecimal : ∀ n : Nat, cr ∉ decimal n := fun n h => absurd (isdigit_of_mem_decimal h) (by decide)
  refine .of_notMem ?_
  cases z with
  | ofNat n => exact hdecimal n
  | negSucc n =>
    have hminus : numToStr (Int.negSucc n) = 45 :: decimal (n + 1) := by
      have hrepr : toString (Int.negSucc n) = "-" ++ Nat.repr (n + 1) := rfl
      rw [numToStr, hrepr, bytes, String.toList_append, List.flatMap_append]
      rfl
    rw [hminus, List.mem_cons, not_or]
    exact ⟨by decide, hdecimal (n + 1)⟩

/-- The line of a header. -/
theorem isHeaderLine_headerLine {f : Bytes × Bytes} (hname : SingleLine f.1) (hvalue : SingleLine f.2) :
    IsHeaderLine (headerLine f) where
  ne_nil := by simp [headerLine, bytes]
  no_crlf := by
    have hline : headerLine f = f.1 ++ 58 :: ([] ++ space :: f.2) := List.append_assoc _ _ _
    rw [hline]
    exact hname.append_cons (by decide) (by decide)
      (SingleLine.nil.append_cons (by decide) (by decide) hvalue)

/-- The header is found again in its line.  The name has no colon, so that the first separator is the one
that was written. -/
theorem headerField_headerLine {f : Bytes × Bytes} (h : IsName f.1) :
    headerField (headerLine f) = some f := by
  have hfind : findSub (bytes ": ") (headerLine f) = some f.1.length := by
    rw [headerLine, List.append_assoc]
    exact Search.findSub_append_pair (by decide) h.no_colon f.2
  have hdrop : (headerLine f).drop (f.1.length + 2) = f.2 := by
    rw [headerLine, List.append_assoc, ← List.drop_drop, List.drop_left]
    rfl
  rw [headerField, hfind, Option.map_some, hdrop, headerLine, List.append_assoc, List.take_left]

/-! ## Readings -/

/-- The bytes of a message, taken apart at line ends: a first line, header lines up to an empty one, and
the rest. -/
structure ReadsAs (message first : Bytes) (lines : List Bytes) (rest : Bytes) : Prop where
  first_singleLine : SingleLine first
  lines_isHeaderLine : ∀ l ∈ lines, IsHeaderLine l
  message_eq : message = first ++ (crlf ++ (headerBlock lines ++ rest))

/-- Every peer that ends lines at CR LF finds the same parts.  A peer that ends them at a bare LF may find
others. -/
theorem ReadsAs.unique {message first first' rest rest' : Bytes} {lines lines' : List Bytes}
    (h : ReadsAs message first lines rest) (h' : ReadsAs message first' lines' rest') :
    first = first' ∧ lines = lines' ∧ rest = rest' := by
  have hmessage := h.message_eq.symm.trans h'.message_eq
  obtain ⟨hfirst, hblock⟩ :=
    Search.append_pair_inj (by decide) h.first_singleLine h'.first_singleLine hmessage
  have hparts : ∀ {lines : List Bytes}, (∀ l ∈ lines, IsHeaderLine l) →
      ∀ l ∈ lines, l ≠ [] ∧ ¬ [cr, lf] <:+: l :=
    fun hlines l hl => ⟨(hlines l hl).ne_nil, (hlines l hl).no_crlf⟩
  rw [headerBlock, headerBlock, List.append_assoc, List.append_assoc] at hblock
  exact ⟨hfirst, Search.flatMap_pair_inj (by decide) (hparts h.lines_isHeaderLine)
    (hparts h'.lines_isHeaderLine) hblock⟩

/-! ## Responses -/

/-- The status line without its end. -/
def Response.status (r : Response) : Bytes :=
  bytes "HTTP/1.1 " ++ numToStr r.statusCode ++ [space] ++ r.reasonPhrase

namespace Response

/-- There is no line end but those that `response` writes, and no separator in a name. -/
structure WellFormed (r : Response) : Prop where
  reason : SingleLine r.reasonPhrase
  name : ∀ f ∈ r.headers.entries, IsName f.1
  value : ∀ f ∈ r.headers.entries, SingleLine f.2

namespace WellFormed

variable {r : Response}

theorem setStatusCode (h : r.WellFormed) (code : Nat) : (r.setStatusCode code).WellFormed where
  reason := by
    have hreasons : ∀ p ∈ reasons, SingleLine (bytes p.2) := by decide +kernel
    show SingleLine (bytes ((reasons.lookup code).getD "Invalid Status Code"))
    cases hlookup : reasons.lookup code with
    | none => decide +kernel
    | some reason =>
      obtain ⟨l₁, l₂, heq, -⟩ := List.lookup_eq_some_iff.mp hlookup
      exact hreasons (code, reason) (by simp [heq])
  name := h.name
  value := h.value

theorem setReasonPhrase (h : r.WellFormed) {reason : Bytes} (hreason : SingleLine reason) :
    (r.setReasonPhrase reason).WellFormed := ⟨hreason, h.name, h.value⟩

theorem setHeader (h : r.WellFormed) {key value : Bytes} (hkey : IsName key) (hvalue : SingleLine value) :
    (r.setHeader key value).WellFormed where
  reason := h.reason
  name f hf := by
    rcases OrderedMap.mem_insertEntry hf with rfl | hf
    · exact hkey
    · exact h.name f hf
  value f hf := by
    rcases OrderedMap.mem_insertEntry hf with rfl | hf
    · exact hvalue
    · exact h.value f hf

theorem deleteHeader (h : r.WellFormed) (key : Bytes) : (r.deleteHeader key).WellFormed where
  reason := h.reason
  name f hf := h.name f (List.mem_filter.mp hf).1
  value f hf := h.value f (List.mem_filter.mp hf).1

/-- The body is free. -/
theorem setBody (h : r.WellFormed) (body : Bytes) : (r.setBody body).WellFormed := ⟨h.reason, h.name, h.value⟩

end WellFormed

theorem wellFormed_clear (r : Response) : r.clear.WellFormed where
  reason := .nil
  name _ hf := absurd hf List.not_mem_nil
  value _ hf := absurd hf List.not_mem_nil

theorem wellFormed_init : init.WellFormed :=
  (wellFormed_clear init).setHeader (by decide +kernel) (by decide +kernel)

theorem head_eq (r : Response) :
    r.head = r.status ++ (crlf ++ headerBlock (r.headers.entries.map headerLine)) := by
  simp [head, statusLine, status, headerBlock, headerLine, List.flatMap_map]

/-- The head of a well-formed response is read as it was meant. -/
theorem reading_head {r : Response} (h : r.WellFormed) (body : Bytes) :
    ReadsAs (r.head ++ body) r.status (r.headers.entries.map headerLine) body where
  first_singleLine := by
    have hnumber : SingleLine (bytes "HTTP/1.1" ++ space :: numToStr r.statusCode) :=
      SingleLine.append_cons (by decide +kernel) (by decide) (by decide) (singleLine_numToStr _)
    have hversion : bytes "HTTP/1.1 " = bytes "HTTP/1.1" ++ [space] := rfl
    have hstatus : r.status =
        (bytes "HTTP/1.1" ++ space :: numToStr r.statusCode) ++ space :: r.reasonPhrase := by
      simp [status, hversion]
    rw [hstatus]
    exact hnumber.append_cons (by decide) (by decide) h.reason
  lines_isHeaderLine := by
    refine List.forall_mem_map.mpr fun f hf => ?_
    exact isHeaderLine_headerLine (h.name f hf).singleLine (h.value f hf)
  message_eq := by rw [head_eq, List.append_assoc, List.append_assoc]

/-- The headers that are read are those of the response. -/
theorem headerFields_entries {r : Response} (h : r.WellFormed) :
    headerFields (r.headers.entries.map headerLine) = r.headers.entries := by
  rw [headerFields, List.filterMap_map]
  refine (List.filterMap_congr fun f hf => headerField_headerLine (h.name f hf)).trans ?_
  exact List.filterMap_some

end Response
end Webserv
