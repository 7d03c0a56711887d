import Webserv.Configuration.Lines

/-!
# Lines, blocks and locations

What the loops of the parser read, each with the tokens it stands for and with what it does to the
configuration.  The body of the loop of a location reads lines (`Reads`), so that a location with given
lines has the value that they fold to, and every location that is accepted consists of lines.

* `Line`, `Block`, `LocationEntry`: the pieces and their tokens.
* `Block.readBlock_eq`, `LocationEntry.locationDirective_eq`: the value of a block and of a location.
* `Block.exists_or_error`, `LocationEntry.exists_or_error`: what is not one of them is refused.

## Why pieces carry their tokens

A configuration is a tree, a file of blocks of lines of words, and the parser gets a list.  Each piece is a
structure with the tokens it consists of and with the conditions that make it one: a directive of its table,
words that are no metacharacters, a `;` or `}` at the end.  So an ill-formed piece cannot be built, and the
tokens of a tree are a function of it.  The two halves of a parser's correctness are then equations: on the
tokens of a piece it computes the value of the piece, and on anything else it throws.

## Why the last token is apart

A handler leaves the cursor on the last token of its piece, and the loop steps over it.  The items of the
library have this split, an `init` and a `last`, and the generic lemma about loops adds the step.
-/

namespace Webserv

open ConfFile TokenCursor

/-! ## Lines -/

/-- A directive of a table of names, its words and the `;` after them. -/
structure Line (δ : Type) (name : δ → Bytes) where
  dir : δ
  directive : ConfToken
  args : List ConfToken
  closing : ConfToken
  directive_str : directive.str = name dir
  words : Words args
  closing_is : closing.is semicolon = true

namespace Line

variable {δ : Type} {name : δ → Bytes}

/-- The lines of a table of directives. -/
def items (δ : Type) (name : δ → Bytes) : Items ConfToken (Line δ name) where
  init l := l.directive :: l.args
  last := Line.closing
  init_ne_nil _ := List.cons_ne_nil _ _

/-- The tokens of a line. -/
abbrev tokens (l : Line δ name) : List ConfToken := (items δ name).tokens l

theorem isLine {tokens rest : List ConfToken} {token : Nat} {l : Line δ name}
    (h : tokens.drop token = l.tokens ++ rest) :
    IsLine semicolon tokens token l.directive l.args l.closing rest where
  drop_eq := by rw [h]; simp [Line.tokens, items, Items.tokens]
  words := l.words
  is_stop := l.closing_is

end Line

/-- A line with a directive of a location. -/
abbrev LocationLine := Line LocationDirective LocationDirective.name

/-- What the line does to the location it stands in. -/
def LocationLine.eval (l : LocationLine) (location : LocationBlock) : Except ConfError LocationBlock :=
  l.dir.set l.directive l.args location

/-! ## Names -/

theorem LocationDirective.ofName_name (dir : LocationDirective) : ofName dir.name = some dir := by
  cases dir <;> decide +kernel

theorem LocationDirective.name_of_ofName {str : Bytes} {dir : LocationDirective}
    (h : ofName str = some dir) : str = dir.name := by
  exact (by simpa using List.find?_some h : dir.name = str).symm

theorem ServerDirective.ofName_name (dir : ServerDirective) : ofName dir.name = some dir := by
  cases dir <;> decide +kernel

theorem ServerDirective.name_of_ofName {str : Bytes} {dir : ServerDirective}
    (h : ofName str = some dir) : str = dir.name := by
  exact (by simpa using List.find?_some h : dir.name = str).symm

theorem Directive.ofName_name (dir : Directive) : ofName dir.name = some dir := by
  cases dir <;> decide +kernel

theorem Directive.name_of_ofName {str : Bytes} {dir : Directive} (h : ofName str = some dir) :
    str = dir.name := by
  exact (by simpa using List.find?_some h : dir.name = str).symm

/-- The two tables of a server have no name in common. -/
theorem ServerDirective.ofName_locationName (dir : LocationDirective) :
    ServerDirective.ofName dir.name = none := by
  cases dir <;> decide +kernel

theorem isMetatoken_of_length {t : ConfToken} (h : 1 < t.str.length) : t.isMetatoken = false := by
  have hne : ∀ c, t.is c = false := fun c => by
    rw [ConfToken.is, decide_eq_false_iff_not]
    rintro heq
    rw [heq] at h
    exact absurd h (lt_irrefl 1)
  simp only [ConfToken.isMetatoken, hne, Bool.or_self]

theorem LocationDirective.one_lt_length_name (dir : LocationDirective) : 1 < dir.name.length := by
  cases dir <;> decide +kernel

theorem ServerDirective.one_lt_length_name (dir : ServerDirective) : 1 < dir.name.length := by
  cases dir <;> decide +kernel

theorem Directive.one_lt_length_name (dir : Directive) : 1 < dir.name.length := by
  cases dir <;> decide +kernel

theorem is_blockClose_of_not_isMetatoken {t : ConfToken} (h : t.isMetatoken = false) :
    t.is blockClose = false := by
  simp only [ConfToken.isMetatoken, Bool.or_eq_false_iff] at h
  exact h.1.2

/-! ## The loop of a location -/

namespace ConfFile

theorem not_at_end {tokens l rest : List ConfToken} {token : Nat} {t : ConfToken}
    (h : tokens.drop token = t :: (l ++ rest)) (hne : l ≠ []) : token + 1 ≠ tokens.length := by
  obtain ⟨u, l', rfl⟩ := List.exists_cons_of_ne_nil hne
  exact Nat.ne_of_lt (lt_of_drop (drop_cons h))

theorem reads_locationBody (tokens : List ConfToken) :
    Reads (Line.items LocationDirective LocationDirective.name) LocationLine.eval tokens
      ConfToken.isMetatoken (locationBody tokens) where
  goes_on {l t ts} hinit := by
    obtain ⟨rfl, -⟩ := List.cons.inj hinit
    exact isMetatoken_of_length (l.directive_str ▸ l.dir.one_lt_length_name)
  body_eq {l t ts rest token} location hinit hdrop := by
    obtain ⟨rfl, rfl⟩ := List.cons.inj hinit
    have hline := Line.isLine hdrop
    have hcons : tokens.drop token = l.directive :: ((l.args ++ [l.closing]) ++ rest) := by
      rw [hdrop]
      rfl
    have hend : token + 1 ≠ tokens.length := not_at_end hcons (by simp)
    have hname : LocationDirective.ofName l.directive.str = some l.dir := by
      rw [l.directive_str, LocationDirective.ofName_name]
    rw [locationBody, hname]
    refine (if_neg hend).trans (((readsLine_locationHandler ..).of_isLine hline).trans ?_)
    show (lift (LocationLine.eval l location)).map _ = (lift (LocationLine.eval l location)).map _
    rw [Nat.add_assoc, Nat.add_comm 1]
    rfl
  item_or_error {t rest token} location hdrop _ := by
    rw [locationBody]
    cases hname : LocationDirective.ofName t.str with
    | none => exact Or.inr ⟨_, rfl⟩
    | some dir =>
      dsimp only
      split_ifs with hend
      · exact Or.inr ⟨_, rfl⟩
      · refine ((readsLine_locationHandler dir tokens token location).cases (lt_of_drop hdrop)).imp_left ?_
        rintro ⟨d, ws, s, rest', x, hline, -, -⟩
        obtain ⟨rfl, rfl⟩ := List.cons.inj (hdrop.symm.trans hline.drop_eq)
        refine ⟨⟨dir, t, ws, s, LocationDirective.name_of_ofName hname, hline.words,
          hline.is_stop⟩, rest', ?_⟩
        simp [Items.tokens, Line.items]

/-- A list of items and a rest after a cursor inside the list: there are fewer items than rounds. -/
theorem length_lt_fuel {ι : Type} {I : Items ConfToken ι} {tokens rest : List ConfToken}
    {items : List ι} {token : Nat} (h : tokens.drop token = items.flatMap I.tokens ++ rest) :
    items.length < tokens.length + 1 := by
  have hlength := congrArg List.length h
  have hitems := I.length_le_length_flatMap items
  rw [List.length_drop, List.length_append] at hlength
  omega

end ConfFile

/-! ## Blocks -/

/-- A directive, a `{`, items and a `}`.  The directive is looked at by the caller, and takes no words. -/
structure Block {ι : Type} (I : Items ConfToken ι) where
  directive : ConfToken
  opening : ConfToken
  body : List ι
  closing : ConfToken
  opening_is : opening.is blockOpen = true
  closing_is : closing.is blockClose = true

namespace Block

variable {ι α : Type} {I : Items ConfToken ι}

/-- The tokens before the `}`. -/
def init (b : Block I) : List ConfToken := b.directive :: b.opening :: b.body.flatMap I.tokens

variable {eval : ι → α → Except ConfError α} {tokens rest : List ConfToken}
  {body : ConfToken → Nat → α → Except Halt (Nat × α)} {token : Nat} {t : ConfToken}

/-- A block has the value that its items fold to. -/
theorem readBlock_eq (h : Reads I eval tokens (ConfToken.is · blockClose) body) (b : Block I) (s : α)
    (hdrop : tokens.drop token = b.init ++ b.closing :: rest) :
    readBlock body tokens token s =
      (lift (b.body.foldlM (fun s i => eval i s) s)).map fun s => (token + b.init.length, s) := by
  have hopening : IsLine blockOpen tokens token b.directive [] b.opening
      (b.body.flatMap I.tokens ++ b.closing :: rest) :=
    ⟨hdrop, (fun _ h => nomatch h), b.opening_is⟩
  have hbody : tokens.drop (token + 2) = b.body.flatMap I.tokens ++ b.closing :: rest :=
    drop_cons (drop_cons hdrop)
  have hstop : ∀ t ∈ (b.closing :: rest).head?, t.is blockClose = true := by
    simpa using b.closing_is
  have hloop := h.loop_eq hstop s (length_lt_fuel hbody) (lt_of_drop (drop_cons hdrop)) hbody
  rw [readBlock, countBlockArgs_of_isLine hopening, deref_of_drop hdrop]
  show (loop tokens _ body (tokens.length + 1) (token + 2) s >>= _) = _
  rw [hloop]
  cases b.body.foldlM (fun s i => eval i s) s with
  | error e => rfl
  | ok s' =>
    have hend : token + 2 + (b.body.flatMap I.tokens).length ≠ tokens.length :=
      Nat.ne_of_lt (lt_of_drop (drop_append hbody))
    have hinit : token + b.init.length = token + 2 + (b.body.flatMap I.tokens).length := by
      rw [init, List.length_cons, List.length_cons]
      omega
    rw [hinit]
    exact if_neg hend

/-- What stands after the cursor is a block, or `readBlock` throws. -/
theorem exists_or_error (h : Reads I eval tokens (ConfToken.is · blockClose) body) (s : α)
    (hdrop : tokens.drop token = t :: rest) :
    (∃ (b : Block I) (rest' : List ConfToken), b.directive = t ∧
        t :: rest = b.init ++ b.closing :: rest') ∨
      ∃ e, readBlock body tokens token s = .error (.exception e) := by
  rcases isLine_or_countBlockArgs_error (lt_of_drop hdrop) with ⟨d, ws, opening, after, hline⟩ | ⟨e, he⟩
  · obtain ⟨rfl, hrest⟩ := List.cons.inj (hdrop.symm.trans hline.drop_eq)
    rw [readBlock, countBlockArgs_of_isLine hline, deref_of_drop hdrop]
    cases ws with
    | cons w ws => exact Or.inr ⟨_, rfl⟩
    | nil =>
      have hbody : tokens.drop (token + 2) = after := drop_cons (drop_cons hline.drop_eq)
      have hfuel : tokens.length - (token + 2) < tokens.length + 1 :=
        Nat.lt_succ_of_le (Nat.sub_le ..)
      rcases h.loop_cases s (lt_of_drop (drop_cons hline.drop_eq)) hfuel with
        ⟨items, rest', s', hitems, hstop, -, hloop⟩ | ⟨e, he⟩
      · cases rest' with
        | nil =>
          have hend := add_eq_of_drop (lt_of_drop (drop_cons hline.drop_eq)) hitems
          obtain ⟨last, after', hlast⟩ := exists_drop_of_lt
            (by omega : (token + 1).succ + (items.flatMap I.tokens).length - 1 < tokens.length)
          refine Or.inr ⟨.unexpectedEOF last blockClose, ?_⟩
          show (loop tokens _ body (tokens.length + 1) (token + 2) s >>= _) = _
          rw [hloop]
          refine (if_pos hend).trans ?_
          rw [deref_of_drop hlast]
          rfl
        | cons closing rest' =>
          have hclosing : closing.is blockClose = true := hstop closing (by simp)
          refine Or.inl ⟨⟨t, opening, items, closing, hline.is_stop, hclosing⟩, rest', rfl, ?_⟩
          have hafter := hbody.symm.trans hitems
          simp [hrest, init, hafter]
      · refine Or.inr ⟨e, ?_⟩
        show (loop tokens _ body (tokens.length + 1) (token + 2) s >>= _) = _
        rw [he]
        rfl
  · refine Or.inr ⟨e, ?_⟩
    rw [readBlock, he]
    rfl

end Block

/-! ## Locations -/

/-- A `location` of a server block: its target is one word, and what is in it are lines. -/
structure LocationEntry where
  directive : ConfToken
  target : ConfToken
  opening : ConfToken
  lines : List LocationLine
  closing : ConfToken
  directive_str : directive.str = ServerDirective.location.name
  target_word : target.isMetatoken = false
  opening_is : opening.is blockOpen = true
  closing_is : closing.is blockClose = true

namespace LocationEntry

/-- The tokens before the `}`. -/
def init (e : LocationEntry) : List ConfToken :=
  e.directive :: e.target :: e.opening :: e.lines.flatMap Line.tokens

def path (e : LocationEntry) : Path := Path.ofString (e.target.str ++ [slash])

/-- The location as it stands before the settings of the server are filled in. -/
def block (e : LocationEntry) : Except ConfError LocationBlock :=
  if !e.path.isOriginForm then .error (.invalidPath e.directive e.target)
  else e.lines.foldlM (fun location l => LocationLine.eval l location) { path := e.path }

variable {tokens rest : List ConfToken} {token : Nat} {t : ConfToken}

/-- A location has the value that its lines fold to. -/
theorem locationDirective_eq (e : LocationEntry) (server : ServerBlock)
    (hdrop : tokens.drop token = e.init ++ e.closing :: rest) :
    locationDirective tokens token server =
      (lift e.block).map fun location => (token + e.init.length, server.addLocation location) := by
  have hopening : IsLine blockOpen tokens token e.directive [e.target] e.opening
      (e.lines.flatMap Line.tokens ++ e.closing :: rest) :=
    ⟨hdrop, List.forall_mem_singleton.mpr e.target_word, e.opening_is⟩
  have htarget : (deref tokens (token + 1) : Except Halt ConfToken) = .ok e.target :=
    deref_of_drop (drop_cons hdrop)
  have hlines : tokens.drop (token + 3) = e.lines.flatMap Line.tokens ++ e.closing :: rest :=
    drop_cons (drop_cons (drop_cons hdrop))
  have hstop : ∀ t ∈ (e.closing :: rest).head?, t.isMetatoken = true := by
    simpa using isMetatoken_of_blockClose _ e.closing_is
  have hloop := (reads_locationBody tokens).loop_eq hstop { path := e.path }
    (length_lt_fuel hlines) (lt_of_drop (drop_cons (drop_cons hdrop))) hlines
  rw [locationDirective, countBlockArgs_of_isLine hopening, deref_of_drop hdrop]
  show ((deref tokens (token + 1) : Except Halt ConfToken) >>= _) = _
  rw [htarget, block]
  show (if (!e.path.isOriginForm) = true then _ else _) = _
  split_ifs with hpath
  · rfl
  · show (loop tokens _ _ (tokens.length + 1) (token + 3) ({ path := e.path } : LocationBlock) >>= _) = _
    rw [hloop]
    cases e.lines.foldlM (fun location l => LocationLine.eval l location)
        ({ path := e.path } : LocationBlock) with
    | error e => rfl
    | ok location =>
      have hclosing := drop_append hlines
      have hinit : token + e.init.length = token + 3 + (e.lines.flatMap Line.tokens).length := by
        rw [init, List.length_cons, List.length_cons, List.length_cons]
        omega
      rw [hinit]
      refine (if_neg (Nat.ne_of_lt (lt_of_drop hclosing))).trans ?_
      rw [deref_of_drop hclosing]
      exact if_neg (by rw [e.closing_is]; exact Bool.false_ne_true)

/-- What stands after the cursor is a location, or `_locationDirective` throws. -/
theorem exists_or_error (server : ServerBlock) (hdrop : tokens.drop token = t :: rest)
    (hname : t.str = ServerDirective.location.name) :
    (∃ (e : LocationEntry) (rest' : List ConfToken), t :: rest = e.init ++ e.closing :: rest') ∨
      ∃ e, locationDirective tokens token server = .error (.exception e) := by
  rcases isLine_or_countBlockArgs_error (lt_of_drop hdrop) with ⟨d, ws, opening, after, hline⟩ | ⟨e, he⟩
  · obtain ⟨rfl, hrest⟩ := List.cons.inj (hdrop.symm.trans hline.drop_eq)
    rw [locationDirective, countBlockArgs_of_isLine hline, deref_of_drop hdrop]
    match ws, hline with
    | [], _ => exact Or.inr ⟨_, rfl⟩
    | _ :: _ :: _, _ => exact Or.inr ⟨_, rfl⟩
    | [target], hline =>
      have htarget : (deref tokens (token + 1) : Except Halt ConfToken) = .ok target :=
        deref_of_drop (drop_cons hline.drop_eq)
      have hlines : tokens.drop (token + 3) = after :=
        drop_cons (drop_cons (drop_cons hline.drop_eq))
      show _ ∨ ∃ e, ((deref tokens (token + 1) : Except Halt ConfToken) >>= _) = _
      rw [htarget]
      show _ ∨ ∃ e, (if (!(Path.ofString (target.str ++ [slash])).isOriginForm) = true then _ else _) = _
      split_ifs with hpath
      · exact Or.inr ⟨_, rfl⟩
      · have hfuel : tokens.length - (token + 3) < tokens.length + 1 :=
          Nat.lt_succ_of_le (Nat.sub_le ..)
        rcases (reads_locationBody tokens).loop_cases
            { path := Path.ofString (target.str ++ [slash]) }
            (lt_of_drop (drop_cons (drop_cons hline.drop_eq))) hfuel with
          ⟨items, rest', location, hitems, hstop, -, hloop⟩ | ⟨e, he⟩
        · cases rest' with
          | nil =>
            have hend : token + 3 + (items.flatMap Line.tokens).length = tokens.length :=
              add_eq_of_drop (lt_of_drop (drop_cons (drop_cons hline.drop_eq))) hitems
            obtain ⟨last, after', hlast⟩ := exists_drop_of_lt
              (by omega : token + 3 + (items.flatMap Line.tokens).length - 1 < tokens.length)
            refine Or.inr ⟨.unexpectedEOF last blockClose, ?_⟩
            show (loop tokens _ _ (tokens.length + 1) (token + 3) _ >>= _) = _
            rw [hloop]
            refine (if_pos hend).trans ?_
            rw [deref_of_drop hlast]
            rfl
          | cons closing rest' =>
            have hclosing := drop_append hitems
            by_cases his : closing.is blockClose = true
            · refine Or.inl ⟨⟨t, target, opening, items, closing, hname,
                hline.words target (List.mem_singleton.mpr rfl), hline.is_stop, his⟩, rest', ?_⟩
              have hafter := hlines.symm.trans hitems
              simp [hrest, init, hafter]
            · refine Or.inr ⟨.unexpectedToken closing, ?_⟩
              show (loop tokens _ _ (tokens.length + 1) (token + 3) _ >>= _) = _
              rw [hloop]
              refine (if_neg (Nat.ne_of_lt (lt_of_drop hclosing))).trans ?_
              rw [deref_of_drop hclosing]
              exact if_pos (by simpa using his)
        · refine Or.inr ⟨e, ?_⟩
          show (loop tokens _ _ (tokens.length + 1) (token + 3) _ >>= _) = _
          rw [he]
          rfl
  · refine Or.inr ⟨e, ?_⟩
    rw [locationDirective, he]
    rfl

end LocationEntry
end Webserv
