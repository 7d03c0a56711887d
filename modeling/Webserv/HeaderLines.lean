import Webserv.HeadParsing

/-!
# Header lines

`_parseHeaders` on a header block: the lines are folded into the map, where the last line of a name wins; a
line without `": "` is refused, and so is a block without `Host`.

* `IsHeaderLine`, `headerField`, `headerBlock`: lines and blocks.
* `lastValue`: the value of a name.
* `parseHeaders_headerBlock`, `parseHeaders_malformed`: the parser on a block.

## Why blocks are built from lines

The parser works on bytes and erases a line at a time.  Statements about heads are about lines: that they
come in another order, that a name is repeated or spelled in another way.  A block is therefore given as its
list of lines, and the two theorems say what the parser makes of it for every such list.  Any bytes in which
the empty line has arrived are a block of this kind, since a line is what stands between two line ends.

## Why a malformed line is a separate case

A block whose lines all have a name and a value becomes the map of these, and what follows the block is left
in the buffer.  With a malformed line the parser stops there, with a 400: which lines are in the map and how
much is left depends on its place, and the statement leaves both open, because nothing looks at them after a
refusal.
-/

namespace Webserv

open Search (findSub)

/-! ## Lines and blocks -/

/-- A line of a header block: it is not empty, and no line end is in it. -/
structure IsHeaderLine (line : Bytes) : Prop where
  ne_nil : line ≠ []
  no_crlf : ¬ crlf <:+: line

instance (line : Bytes) : Decidable (IsHeaderLine line) :=
  decidable_of_iff (line ≠ [] ∧ ¬ crlf <:+: line) ⟨fun h => ⟨h.1, h.2⟩, fun h => ⟨h.1, h.2⟩⟩

/-- The name and the value of a line, which its first `": "` separates. -/
def headerField (line : Bytes) : Option (Bytes × Bytes) :=
  (findSub (bytes ": ") line).map fun pos => (line.take pos, line.drop (pos + 2))

/-- The lines, each with its end, and the empty line. -/
def headerBlock (lines : List Bytes) : Bytes := lines.flatMap (· ++ crlf) ++ crlf

/-- The fields of the lines. -/
def headerFields (lines : List Bytes) : List (Bytes × Bytes) := lines.filterMap headerField

/-- The value of the last line of a name, which is the one that the map keeps. -/
def lastValue (lines : List Bytes) (name : Bytes) : Option Bytes :=
  (((headerFields lines).filter fun f => f.1 = name).getLast?).map Prod.snd

/-- The header map of the lines: a later line of the same name replaces an earlier one. -/
def headerMap (lines : List Bytes) : StringMap := OrderedMap.empty.insertAll (headerFields lines)

theorem find?_headerMap (lines : List Bytes) (name : Bytes) :
    (headerMap lines).find? name = lastValue lines name := by
  rw [headerMap, OrderedMap.find?_insertAll, OrderedMap.find?_empty, Option.or_none, lastValue]

namespace RequestContext

/-- What `_parseHeaders` does at the empty line: a head without `Host` is refused. -/
def closeHeaders (ctx : RequestContext) : RequestContext :=
  if (ctx.headers.find? headerHost).isNone then ctx.refuse statusBadRequest
  else ctx.setState RequestState.setReadHeadersComplete

variable {ctx : RequestContext} {lines : List Bytes} {rest : Bytes}

/-- One line of a block. -/
theorem parseHeaders_line {line : Bytes} (hline : IsHeaderLine line)
    (hbuffer : ctx.buffer = line ++ (crlf ++ rest)) :
    ctx.parseHeaders =
      match headerField line with
      | none => (.reqDone, { ctx with buffer := rest }.refuse statusBadRequest)
      | some f => { ctx with buffer := rest, headers := ctx.headers.insert f.1 f.2 }.parseHeaders := by
  have hfind : findSub crlf ctx.buffer = some line.length := by
    rw [hbuffer]
    exact Search.findSub_append_pair (by decide) hline.no_crlf rest
  have htake : ctx.buffer.take line.length = line := by rw [hbuffer, List.take_left]
  have hdrop : ctx.dropLine line.length = { ctx with buffer := rest } := by
    rw [dropLine, hbuffer, ← List.drop_drop, List.drop_left]
    rfl
  rw [parseHeaders_eq, hfind]
  dsimp only
  rw [htake, if_neg hline.ne_nil, hdrop, headerField]
  cases findSub (bytes ": ") line <;> rfl

/-- The end of a block: the empty line is taken off, and `Host` is looked for. -/
theorem parseHeaders_end (hbuffer : ctx.buffer = crlf ++ rest) :
    ctx.parseHeaders = (.reqDone, { ctx with buffer := rest }.closeHeaders) := by
  have hfind : findSub crlf ctx.buffer = some 0 := by
    rw [hbuffer]
    exact Search.findSub_append_pair (l := []) (by decide) (by simp) rest
  have hdrop : ctx.dropLine 0 = { ctx with buffer := rest } := by
    rw [dropLine, hbuffer]
    rfl
  rw [parseHeaders_eq, hfind]
  dsimp only
  rw [if_pos List.take_zero, hdrop, closeHeaders]
  split_ifs <;> rfl

theorem headerBlock_cons (line : Bytes) (lines : List Bytes) (rest : Bytes) :
    headerBlock (line :: lines) ++ rest = line ++ (crlf ++ (headerBlock lines ++ rest)) := by
  simp [headerBlock]

/-- **Header blocks.**  A block whose lines have a name and a value is folded into the map, and what follows
it is left in the buffer. -/
theorem parseHeaders_headerBlock (hlines : ∀ l ∈ lines, IsHeaderLine l)
    (hfields : ∀ l ∈ lines, (headerField l).isSome = true)
    (hbuffer : ctx.buffer = headerBlock lines ++ rest) :
    ctx.parseHeaders = (.reqDone, { ctx with
      buffer := rest
      headers := ctx.headers.insertAll (headerFields lines) }.closeHeaders) := by
  induction lines generalizing ctx with
  | nil => exact parseHeaders_end hbuffer
  | cons line lines ih =>
    obtain ⟨f, hf⟩ := Option.isSome_iff_exists.mp (hfields line List.mem_cons_self)
    rw [headerBlock_cons] at hbuffer
    rw [parseHeaders_line (hlines line List.mem_cons_self) hbuffer, hf]
    refine (ih (fun l hl => hlines l (List.mem_cons_of_mem _ hl))
      (fun l hl => hfields l (List.mem_cons_of_mem _ hl)) rfl).trans ?_
    rw [headerFields, headerFields, List.filterMap_cons_some hf]
    rfl

/-- **Malformed blocks.**  A line without a name and a value is refused, wherever it stands, and which lines
are in the map by then is left open. -/
theorem parseHeaders_malformed (hlines : ∀ l ∈ lines, IsHeaderLine l)
    (hfields : ∃ l ∈ lines, headerField l = none)
    (hbuffer : ctx.buffer = headerBlock lines ++ rest) :
    ∃ buffer headers, ctx.parseHeaders =
      (.reqDone, { ctx with buffer := buffer, headers := headers }.refuse statusBadRequest) := by
  induction lines generalizing ctx with
  | nil => exact absurd hfields (by simp)
  | cons line lines ih =>
    rw [headerBlock_cons] at hbuffer
    rw [parseHeaders_line (hlines line List.mem_cons_self) hbuffer]
    cases hf : headerField line with
    | none => exact ⟨_, _, rfl⟩
    | some f =>
      obtain ⟨l, hl, hnone⟩ := hfields
      have hmem : l ∈ lines := (List.mem_cons.mp hl).resolve_left fun heq => by
        rw [heq, hf] at hnone
        cases hnone
      exact ih (fun l hl => hlines l (List.mem_cons_of_mem _ hl)) ⟨l, hmem, hnone⟩ rfl

end RequestContext
end Webserv
