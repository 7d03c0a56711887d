import Webserv.Configuration.Items

/-!
# The cursor of the configuration parser

`ConfFile::parse` ends on every list of tokens, at the end of the list or with a `ConfigurationException`;
it reads no token outside the list, and every handler that returns leaves the cursor on a `;` or `}` of the
list, after its directive.

* `LeavesCursor`: how a handler may end.
* `ReachesEnd`: how the parser may end.
* `parse_cursor`: the parser and its handlers, on every list of tokens.

## Why this is not obvious

The source works with iterators and dereferences them without a test in most places: what keeps it inside
the list is the count at the beginning of a directive, and that each handler stops at the token the count
has seen.  In a block the token behind the current one is looked at as well.  A file may end anywhere, in
the middle of a line, behind a `{`, or before the `}` of a block, and in each of these cases it has to be a
test and not an iterator that finds the end.

## How it is proved

Reading outside of the list and running out of rounds are outcomes of the model, so the statement is that
they do not occur.  For a line it comes from the agreement with the functions on lines
(`ReadsLine.leavesCursor`), for a block from the items that it consists of.  The parser itself is then
covered by the list of items that it is.
-/

namespace Webserv
namespace ConfFile

open TokenCursor

variable {α β : Type} {tokens : List ConfToken} {token : Nat} {t : ConfToken}

/-- A handler throws, or leaves the cursor on a `;` or `}` after the directive. -/
inductive LeavesCursor (tokens : List ConfToken) (token : Nat) : Except Halt (Nat × α) → Prop
  | returns {token' : Nat} {s : α} {t : ConfToken} : token < token' → tokens[token']? = some t →
      t.is semicolon = true ∨ t.is blockClose = true → LeavesCursor tokens token (.ok (token', s))
  | throws (e : ConfError) : LeavesCursor tokens token (.error (.exception e))

namespace LeavesCursor

/-- A handler whose state is a part of another leaves the cursor where it does. -/
theorem bind_part {r : Except Halt (Nat × α)} (h : LeavesCursor tokens token r) (f : α → β) :
    LeavesCursor tokens token (r >>= fun p => .ok (p.1, f p.2)) := by
  cases h with
  | returns hlt hget hlast => exact .returns hlt hget hlast
  | throws e => exact .throws e

/-- The cursor is on the token after the others of an item. -/
theorem of_drop {init rest : List ConfToken} {last : ConfToken} {s : α}
    (hdrop : tokens.drop token = init ++ last :: rest) (hinit : init ≠ [])
    (hlast : last.is semicolon = true ∨ last.is blockClose = true) :
    LeavesCursor tokens token (.ok (token + init.length, s)) := by
  have hpos := List.length_pos_iff.mpr hinit
  refine .returns (by omega) ?_ hlast
  rw [← List.head?_drop, drop_append hdrop, List.head?_cons]

end LeavesCursor

/-- A handler that reads a line leaves the cursor on its `;`. -/
theorem ReadsLine.leavesCursor {value : ConfToken → List ConfToken → Except ConfError α}
    {r : Except Halt (Nat × α)} (h : ReadsLine tokens token value r) (hlt : token < tokens.length) :
    LeavesCursor tokens token r := by
  rcases h.cases hlt with ⟨d, ws, s, rest, x, hline, -, rfl⟩ | ⟨e, rfl⟩
  · rw [Nat.add_assoc, Nat.add_comm 1]
    exact .of_drop hline.drop_eq (List.cons_ne_nil d ws) (Or.inl hline.is_stop)
  · exact .throws e

theorem leavesCursor_readBlock {ι : Type} {I : Items ConfToken ι} {eval : ι → α → Except ConfError α}
    {body : ConfToken → Nat → α → Except Halt (Nat × α)}
    (h : Reads I eval tokens (ConfToken.is · blockClose) body) (s : α) (hlt : token < tokens.length) :
    LeavesCursor tokens token (readBlock body tokens token s) := by
  obtain ⟨t, rest, hdrop⟩ := exists_drop_of_lt hlt
  rcases Block.exists_or_error h s hdrop with ⟨b, rest', -, heq⟩ | ⟨e, he⟩
  · rw [b.readBlock_eq h s (hdrop.trans heq)]
    cases b.body.foldlM (fun s i => eval i s) s with
    | error e => exact .throws e
    | ok s' => exact .of_drop (hdrop.trans heq) (List.cons_ne_nil _ _) (Or.inr b.closing_is)
  · rw [he]
    exact .throws e

theorem leavesCursor_handler (dir : Directive) (conf : ConfFile) (hlt : token < tokens.length) :
    LeavesCursor tokens token (handler dir tokens token conf) := by
  cases dir with
  | clientHeaderTimeout => exact (readsLine_timeoutDirective _ tokens token conf).leavesCursor hlt
  | clientBodyTimeout => exact (readsLine_timeoutDirective _ tokens token conf).leavesCursor hlt
  | sendTimeout => exact (readsLine_timeoutDirective _ tokens token conf).leavesCursor hlt
  | server =>
    exact (leavesCursor_readBlock (reads_serverBody tokens) {} hlt).bind_part fun scope =>
      { conf with root := scope.root, blocks := conf.blocks ++ [scope.finish] }
  | types =>
    exact (leavesCursor_readBlock (reads_typesBody tokens) conf.mimetypes hlt).bind_part
      fun mimetypes => { conf with mimetypes := mimetypes }

theorem leavesCursor_locationDirective (server : ServerBlock) (hget : tokens[token]? = some t)
    (hname : t.str = ServerDirective.location.name) :
    LeavesCursor tokens token (locationDirective tokens token server) := by
  obtain ⟨hlt, hget⟩ := List.getElem?_eq_some_iff.mp hget
  have hdrop : tokens.drop token = t :: tokens.drop (token + 1) := by
    rw [← hget, ← List.drop_eq_getElem_cons hlt]
  rcases LocationEntry.exists_or_error server hdrop hname with ⟨e, rest', heq⟩ | ⟨e, he⟩
  · rw [e.locationDirective_eq server (hdrop.trans heq)]
    cases e.block with
    | error e => exact .throws e
    | ok location => exact .of_drop (hdrop.trans heq) (List.cons_ne_nil _ _) (Or.inr e.closing_is)
  · rw [he]
    exact .throws e

theorem leavesCursor_loadType (mimetypes : StringMap) (hlt : token < tokens.length) :
    LeavesCursor tokens token (loadType tokens token mimetypes) := by
  rcases isLine_or_countArgs_error hlt with ⟨d, ws, s, rest, hline⟩ | ⟨e, he⟩
  · rw [loadType, countArgs_of_isLine hline, deref_of_drop hline.drop_eq]
    show LeavesCursor tokens token
      (forEach tokens (fun mimetypes ext => lift (addTypes d mimetypes ext)) _ _ _)
    rw [forEach_eq _ _ (drop_cons hline.drop_eq), foldlM_lift]
    cases ws.foldlM (addTypes d) mimetypes with
    | error e => exact .throws e
    | ok mimetypes' =>
      show LeavesCursor tokens token (.ok (token + 1 + ws.length, mimetypes'))
      rw [Nat.add_assoc, Nat.add_comm 1]
      exact .of_drop hline.drop_eq (List.cons_ne_nil d ws) (Or.inl hline.is_stop)
  · rw [loadType, he]
    exact .throws e

/-- How the parser may end: it throws, or the cursor has reached the end of the list. -/
inductive ReachesEnd (tokens : List ConfToken) : Except Halt (Nat × ConfFile) → Prop
  | returns (conf : ConfFile) : ReachesEnd tokens (.ok (tokens.length, conf))
  | throws (e : ConfError) : ReachesEnd tokens (.error (.exception e))

/-- **The cursor.**  On every list of tokens the parser throws or reaches the end, and every handler
throws or leaves the cursor on a `;` or `}` after the directive it was given. -/
theorem parse_cursor (tokens : List ConfToken) :
    (∀ conf, ReachesEnd tokens (parseTokens tokens conf)) ∧
      ∀ token t, tokens[token]? = some t →
        (∀ dir conf, t.str = Directive.name dir →
          LeavesCursor tokens token (handler dir tokens token conf)) ∧
        (∀ root dir server, t.str = ServerDirective.name dir →
          LeavesCursor tokens token (serverHandler root dir tokens token server)) ∧
        (∀ dir location, t.str = LocationDirective.name dir →
          LeavesCursor tokens token (locationHandler dir tokens token location)) ∧
        ∀ mimetypes, LeavesCursor tokens token (loadType tokens token mimetypes) := by
  refine ⟨fun conf => ?_, fun token t hget => ?_⟩
  · rcases parseTokens_cases tokens conf with ⟨items, conf', -, -, heq⟩ | ⟨e, heq⟩
    · rw [heq]
      exact .returns conf'
    · rw [heq]
      exact .throws e
  · have hlt := (List.getElem?_eq_some_iff.mp hget).1
    refine ⟨fun dir conf _ => leavesCursor_handler dir conf hlt, fun root dir server hname => ?_,
      fun dir location _ => (readsLine_locationHandler dir tokens token location).leavesCursor hlt,
      fun mimetypes => leavesCursor_loadType mimetypes hlt⟩
    cases dir with
    | listen => exact (readsLine_serverHandler root .listen tokens token server).leavesCursor hlt
    | serverName =>
      exact (readsLine_serverHandler root .serverName tokens token server).leavesCursor hlt
    | errorPage =>
      exact (readsLine_serverHandler root .errorPage tokens token server).leavesCursor hlt
    | location => exact leavesCursor_locationDirective server hget hname

/-- A file whose last block is not closed. -/
def truncatedTokens : List ConfToken := tokenizeFile (bytes "server \x7b\nlisten 80;\nlocation / \x7b")

theorem parse_cursor_truncated :
    ReachesEnd truncatedTokens (parseTokens truncatedTokens init) ∧
      LeavesCursor truncatedTokens 2 (serverHandler {} .listen truncatedTokens 2 {}) := by
  have hget : truncatedTokens[2]? = some ⟨bytes "listen", 2⟩ := by decide +kernel
  have h := parse_cursor truncatedTokens
  exact ⟨h.1 init, (h.2 2 _ hget).2.1 {} .listen {} rfl⟩

end ConfFile
end Webserv
