import Webserv.Configuration.Entries

/-!
# The items of a configuration file

The entries of a `server` block, the lines of a `types` block and the items of a file.

* `ServerEntry.eval`, `TypeLine.eval`, `Item.eval`: what they do.
* `reads_serverBody`, `reads_typesBody`, `reads_parseBody`: the loops read them.
* `parseTokens_eq`, `parseTokens_cases`: a file of items has the value that they fold to, and every other
  file is refused.

## Why three loops and one lemma

The loop of `parse`, that of `_serverDirective` and that of `_typesDirective` have the same form: look at a
token, find its handler, let it read, step on.  They differ in the table and in the state.  Each has a lemma
that its body reads items of a certain kind, and the library makes the statement about the loop of it.  As
the items of a file contain blocks, which contain items, the lemmas are applied from the inside out.

## Why every accepted file is a list of items

`parseTokens_cases` is the form in which everything else uses the parser.  Whatever a file is, the parser
throws one of its exceptions, or the tokens are those of a list of items, and the configuration is what the
items fold to.  It follows that the parser terminates and reads nothing outside the list, and that a
property of accepted files can be proved by an induction over items.
-/

namespace Webserv

open ConfFile TokenCursor

/-! ## The entries of a server -/

/-- What stands in a `server` block: a directive of the server, a directive of a location, which goes
to the settings of the server, or a location. -/
inductive ServerEntry where
  | line (l : Line ServerLine fun dir => dir.directive.name)
  | setting (l : LocationLine)
  | location (e : LocationEntry)

namespace ServerEntry

/-- The tokens before the last. -/
def init : ServerEntry → List ConfToken
  | line l => l.directive :: l.args
  | setting l => l.directive :: l.args
  | location e => e.init

def last : ServerEntry → ConfToken
  | line l => l.closing
  | setting l => l.closing
  | location e => e.closing

/-- The entries of a server. -/
def items : Items ConfToken ServerEntry where
  init := init
  last := last
  init_ne_nil e := by cases e <;> exact List.cons_ne_nil _ _

/-- What an entry does to the scope of its block. -/
def eval : ServerEntry → ServerScope → Except ConfError ServerScope
  | line l, scope =>
    (l.dir.set scope.root l.directive l.args scope.server).map fun server =>
      { scope with server := server }
  | setting l, scope =>
    (LocationLine.eval l scope.globalLocation).map fun location =>
      { scope with globalLocation := location, root := location.root }
  | location e, scope =>
    e.block.map fun location => { scope with server := scope.server.addLocation location }

end ServerEntry

namespace ConfFile

/-- A handler whose state is a part of the state of the loop. -/
theorem bind_part {α β : Type} (x : Except ConfError α) (n : Nat) (f : α → β) :
    (((lift x).map fun s => (n, s)) >>= fun p => .ok (p.1, f p.2)) =
      (lift (x.map f)).map fun s => (n, s) := by
  cases x <;> rfl

theorem bind_part_error {α β : Type} {e : ConfError} {r : Except Halt (Nat × α)}
    (h : r = .error (.exception e)) (f : Nat × α → Except Halt β) :
    (r >>= f) = .error (.exception e) := by
  rw [h]
  rfl

/-- A directive of the server stands at the head of an entry, or throws. -/
theorem serverEntry_or_error {tokens rest : List ConfToken} {token : Nat} {t : ConfToken}
    {dir : ServerDirective} (scope : ServerScope) (hdrop : tokens.drop token = t :: rest)
    (hname : t.str = dir.name) :
    (∃ i rest', t :: rest = ServerEntry.items.tokens i ++ rest') ∨
      ∃ e, serverHandler scope.root dir tokens token scope.server = .error (.exception e) := by
  have hline : ∀ dir' : ServerLine, dir'.directive = dir →
      (∃ i rest', t :: rest = ServerEntry.items.tokens i ++ rest') ∨
        ∃ e, serverHandler scope.root dir tokens token scope.server = .error (.exception e) := by
    rintro dir' rfl
    refine ((readsLine_serverHandler scope.root dir' tokens token scope.server).cases
      (lt_of_drop hdrop)).imp_left ?_
    rintro ⟨d, ws, s, rest', x, hline, -, -⟩
    obtain ⟨rfl, rfl⟩ := List.cons.inj (hdrop.symm.trans hline.drop_eq)
    refine ⟨.line ⟨dir', t, ws, s, hname, hline.words, hline.is_stop⟩, rest', ?_⟩
    simp [Items.tokens, ServerEntry.items, ServerEntry.init, ServerEntry.last]
  cases dir with
  | listen => exact hline .listen rfl
  | serverName => exact hline .serverName rfl
  | errorPage => exact hline .errorPage rfl
  | location =>
    refine (LocationEntry.exists_or_error scope.server hdrop hname).imp_left ?_
    rintro ⟨e, rest', heq⟩
    refine ⟨.location e, rest', ?_⟩
    rw [heq, Items.tokens, List.append_assoc]
    rfl

theorem reads_serverBody (tokens : List ConfToken) :
    Reads ServerEntry.items ServerEntry.eval tokens (ConfToken.is · blockClose)
      (serverBody tokens) where
  goes_on {e t ts} hinit := by
    refine is_blockClose_of_not_isMetatoken (isMetatoken_of_length ?_)
    cases e with
    | line l =>
      obtain ⟨rfl, -⟩ := List.cons.inj hinit
      exact l.directive_str ▸ l.dir.directive.one_lt_length_name
    | setting l =>
      obtain ⟨rfl, -⟩ := List.cons.inj hinit
      exact l.directive_str ▸ l.dir.one_lt_length_name
    | location e =>
      obtain ⟨rfl, -⟩ := List.cons.inj hinit
      exact e.directive_str ▸ ServerDirective.location.one_lt_length_name
  body_eq {e t ts rest token} scope hinit hdrop := by
    have hend : token + 1 ≠ tokens.length := by
      have hcons : tokens.drop token = t :: ((ts ++ [e.last]) ++ rest) := by
        rw [hdrop, Items.tokens, hinit]
        rfl
      exact not_at_end hcons (by simp)
    refine (if_neg hend).trans ?_
    cases e with
    | line l =>
      obtain ⟨rfl, rfl⟩ := List.cons.inj hinit
      have hline := Line.isLine (l := l) hdrop
      have hname : ServerDirective.ofName l.directive.str = some l.dir.directive := by
        rw [l.directive_str, ServerDirective.ofName_name]
      rw [hname]
      show (serverHandler scope.root l.dir.directive tokens token scope.server >>= _) = _
      rw [(readsLine_serverHandler ..).of_isLine hline, Nat.add_assoc, Nat.add_comm 1]
      exact bind_part _ _ fun server => { scope with server := server }
    | setting l =>
      obtain ⟨rfl, rfl⟩ := List.cons.inj hinit
      have hline := Line.isLine (l := l) hdrop
      have hserver : ServerDirective.ofName l.directive.str = none := by
        rw [l.directive_str, ServerDirective.ofName_locationName]
      have hname : LocationDirective.ofName l.directive.str = some l.dir := by
        rw [l.directive_str, LocationDirective.ofName_name]
      rw [hserver, hname]
      show (locationHandler l.dir tokens token scope.globalLocation >>= _) = _
      rw [(readsLine_locationHandler ..).of_isLine hline, Nat.add_assoc, Nat.add_comm 1]
      exact bind_part _ _ fun location : LocationBlock =>
        { scope with globalLocation := location, root := location.root }
    | location e =>
      obtain ⟨rfl, rfl⟩ := List.cons.inj hinit
      have hinit' : tokens.drop token = e.init ++ e.closing :: rest := by
        rw [hdrop, Items.tokens, List.append_assoc]
        rfl
      have hname : ServerDirective.ofName e.directive.str = some .location := by
        rw [e.directive_str, ServerDirective.ofName_name]
      rw [hname]
      show (locationDirective tokens token scope.server >>= _) = _
      rw [e.locationDirective_eq scope.server hinit', ServerEntry.eval]
      cases e.block <;> rfl
  item_or_error {t rest token} scope hdrop _ := by
    rw [serverBody]
    split_ifs with hend
    · exact Or.inr ⟨_, rfl⟩
    · cases hserver : ServerDirective.ofName t.str with
      | some dir =>
        refine (serverEntry_or_error scope hdrop (ServerDirective.name_of_ofName hserver)).imp_right ?_
        rintro ⟨e, he⟩
        exact ⟨e, bind_part_error he _⟩
      | none =>
        cases hlocation : LocationDirective.ofName t.str with
        | none => exact Or.inr ⟨_, rfl⟩
        | some dir =>
          rcases (readsLine_locationHandler dir tokens token scope.globalLocation).cases
              (lt_of_drop hdrop) with ⟨d, ws, s, rest', x, hline, -, -⟩ | ⟨e, he⟩
          · obtain ⟨rfl, rfl⟩ := List.cons.inj (hdrop.symm.trans hline.drop_eq)
            refine Or.inl ⟨.setting ⟨dir, t, ws, s, LocationDirective.name_of_ofName hlocation,
              hline.words, hline.is_stop⟩, rest', ?_⟩
            simp [Items.tokens, ServerEntry.items, ServerEntry.init, ServerEntry.last]
          · exact Or.inr ⟨e, bind_part_error he _⟩

end ConfFile

/-! ## The lines of a `types` block -/

/-- A line of a `types` block.  Its first token is only known not to be the `}` of the block. -/
structure TypeLine where
  type : ConfToken
  exts : List ConfToken
  closing : ConfToken
  type_is : type.is blockClose = false
  words : Words exts
  closing_is : closing.is semicolon = true

namespace TypeLine

/-- The lines of a `types` block. -/
def items : Items ConfToken TypeLine where
  init l := l.type :: l.exts
  last := closing
  init_ne_nil _ := List.cons_ne_nil _ _

/-- What a line does to the MIME types. -/
def eval (l : TypeLine) (mimetypes : StringMap) : Except ConfError StringMap :=
  l.exts.foldlM (addTypes l.type) mimetypes

end TypeLine

namespace ConfFile

theorem reads_typesBody (tokens : List ConfToken) :
    Reads TypeLine.items TypeLine.eval tokens (ConfToken.is · blockClose) (typesBody tokens) where
  goes_on {l t ts} hinit := by
    obtain ⟨rfl, -⟩ := List.cons.inj hinit
    exact l.type_is
  body_eq {l t ts rest token} mimetypes hinit hdrop := by
    obtain ⟨rfl, rfl⟩ := List.cons.inj hinit
    have hcons : tokens.drop token = l.type :: (l.exts ++ l.closing :: rest) := by
      simpa [Items.tokens, TypeLine.items] using hdrop
    have hwords : tokens.drop token = l.type :: ((l.exts ++ [l.closing]) ++ rest) := by
      rw [hdrop]
      rfl
    have hend : token + 1 ≠ tokens.length := not_at_end hwords (by simp)
    have hloop := forEach_eq (fun mimetypes ext => lift (addTypes l.type mimetypes ext)) mimetypes
      (drop_cons hcons)
    rw [foldlM_lift] at hloop
    rw [typesBody, if_neg hend, loadType, countArgs_of_isLine ⟨hcons, l.words, l.closing_is⟩,
      deref_of_drop hcons]
    refine hloop.trans ?_
    rw [Nat.add_assoc, Nat.add_comm 1]
    rfl
  item_or_error {t rest token} mimetypes hdrop hgo := by
    rw [typesBody]
    split_ifs with hend
    · exact Or.inr ⟨_, rfl⟩
    · rcases isLine_or_countArgs_error (lt_of_drop hdrop) with ⟨d, ws, s, rest', hline⟩ | ⟨e, he⟩
      · obtain ⟨rfl, rfl⟩ := List.cons.inj (hdrop.symm.trans hline.drop_eq)
        refine Or.inl ⟨⟨t, ws, s, hgo, hline.words, hline.is_stop⟩, rest', ?_⟩
        simp [Items.tokens, TypeLine.items]
      · refine Or.inr ⟨e, ?_⟩
        rw [loadType, he]
        rfl

end ConfFile

/-! ## The items of a file -/

/-- The directive that sets a timeout. -/
def Timeout.directive : Timeout → Directive
  | clientHeader => .clientHeaderTimeout
  | clientBody => .clientBodyTimeout
  | send => .sendTimeout

/-- What stands in a file: a timeout, a `server` block or a `types` block. -/
inductive Item where
  | timeout (l : Line Timeout fun type => type.directive.name)
  | server (b : Block ServerEntry.items) (h : b.directive.str = Directive.server.name)
  | types (b : Block TypeLine.items) (h : b.directive.str = Directive.types.name)

namespace Item

/-- The tokens before the last. -/
def init : Item → List ConfToken
  | timeout l => l.directive :: l.args
  | server b _ => b.init
  | types b _ => b.init

def last : Item → ConfToken
  | timeout l => l.closing
  | server b _ => b.closing
  | types b _ => b.closing

/-- The items of a file. -/
def items : Items ConfToken Item where
  init := init
  last := last
  init_ne_nil i := by cases i <;> exact List.cons_ne_nil _ _

/-- The scope at the end of a `server` block: the fold of its entries, from the empty one. -/
def scope (b : Block ServerEntry.items) : Except ConfError ServerScope :=
  b.body.foldlM (fun scope e => e.eval scope) {}

/-- What an item does to the configuration. -/
def eval : Item → ConfFile → Except ConfError ConfFile
  | timeout l, conf => oneArgValue (takeTimeout l.dir) l.directive l.args conf
  | server b _, conf =>
    (scope b).map fun scope =>
      { conf with root := scope.root, blocks := conf.blocks ++ [scope.finish] }
  | types b _, conf =>
    (b.body.foldlM (fun mimetypes l => TypeLine.eval l mimetypes) conf.mimetypes).map fun mimetypes =>
      { conf with mimetypes := mimetypes }

end Item

namespace ConfFile

theorem handler_timeout (type : Timeout) : handler type.directive = timeoutDirective type := by
  cases type <;> rfl

theorem serverDirective_eq {tokens rest : List ConfToken} {token : Nat} (b : Block ServerEntry.items)
    (conf : ConfFile) (hdrop : tokens.drop token = b.init ++ b.closing :: rest) :
    serverDirective tokens token conf =
      (lift ((Item.scope b).map fun scope =>
        { conf with root := scope.root, blocks := conf.blocks ++ [scope.finish] })).map fun conf =>
          (token + b.init.length, conf) := by
  rw [serverDirective, b.readBlock_eq (reads_serverBody tokens) {} hdrop]
  exact bind_part _ _ fun scope : ServerScope =>
    { conf with root := scope.root, blocks := conf.blocks ++ [scope.finish] }

theorem reads_parseBody (tokens : List ConfToken) :
    Reads Item.items Item.eval tokens (fun _ => false) (parseBody tokens) where
  goes_on _ := rfl
  body_eq {i t ts rest token} conf hinit hdrop := by
    have hcons : tokens.drop token = Item.init i ++ Item.last i :: rest := by
      simpa [Items.tokens, Item.items] using hdrop
    rw [parseBody]
    cases i with
    | timeout l =>
      obtain ⟨rfl, rfl⟩ := List.cons.inj hinit
      have hline := Line.isLine (l := l) hdrop
      have hname : Directive.ofName l.directive.str = some l.dir.directive := by
        rw [l.directive_str, Directive.ofName_name]
      rw [hname]
      show handler l.dir.directive tokens token conf = _
      rw [handler_timeout, (readsLine_timeoutDirective ..).of_isLine hline, Nat.add_assoc,
        Nat.add_comm 1]
      rfl
    | server b h =>
      obtain ⟨rfl, rfl⟩ := List.cons.inj hinit
      rw [h, Directive.ofName_name]
      exact serverDirective_eq b conf hcons
    | types b h =>
      obtain ⟨rfl, rfl⟩ := List.cons.inj hinit
      rw [h, Directive.ofName_name]
      show typesDirective tokens token conf = _
      rw [typesDirective, b.readBlock_eq (reads_typesBody tokens) conf.mimetypes hcons]
      exact bind_part _ _ fun mimetypes : StringMap => { conf with mimetypes := mimetypes }
  item_or_error {t rest token} conf hdrop _ := by
    rw [parseBody]
    cases hname : Directive.ofName t.str with
    | none => exact Or.inr ⟨_, rfl⟩
    | some dir =>
      have hstr := Directive.name_of_ofName hname
      have htimeout : ∀ type : Timeout, type.directive = dir →
          (∃ i rest', t :: rest = Item.items.tokens i ++ rest') ∨
            ∃ e, handler dir tokens token conf = .error (.exception e) := by
        rintro type rfl
        rw [handler_timeout]
        refine ((readsLine_timeoutDirective type tokens token conf).cases
          (lt_of_drop hdrop)).imp_left ?_
        rintro ⟨d, ws, s, rest', x, hline, -, -⟩
        obtain ⟨rfl, rfl⟩ := List.cons.inj (hdrop.symm.trans hline.drop_eq)
        refine ⟨.timeout ⟨type, t, ws, s, hstr, hline.words, hline.is_stop⟩, rest', ?_⟩
        simp [Items.tokens, Item.items, Item.init, Item.last]
      cases dir with
      | clientHeaderTimeout => exact htimeout .clientHeader rfl
      | clientBodyTimeout => exact htimeout .clientBody rfl
      | sendTimeout => exact htimeout .send rfl
      | server =>
        rcases Block.exists_or_error (reads_serverBody tokens) {} hdrop with
          ⟨b, rest', hdirective, heq⟩ | ⟨e, he⟩
        · refine Or.inl ⟨.server b (hdirective ▸ hstr), rest', ?_⟩
          simpa [Items.tokens, Item.items, Item.init, Item.last] using heq
        · exact Or.inr ⟨e, bind_part_error he _⟩
      | types =>
        rcases Block.exists_or_error (reads_typesBody tokens) conf.mimetypes hdrop with
          ⟨b, rest', hdirective, heq⟩ | ⟨e, he⟩
        · refine Or.inl ⟨.types b (hdirective ▸ hstr), rest', ?_⟩
          simpa [Items.tokens, Item.items, Item.init, Item.last] using heq
        · exact Or.inr ⟨e, bind_part_error he _⟩

/-- The configuration of a file of items. -/
theorem parseTokens_eq {tokens : List ConfToken} {items : List Item}
    (h : tokens = items.flatMap Item.items.tokens) (conf : ConfFile) :
    parseTokens tokens conf =
      (lift (items.foldlM (fun conf i => i.eval conf) conf)).map fun conf => (tokens.length, conf) := by
  have hdrop : tokens.drop 0 = items.flatMap Item.items.tokens ++ [] := by simpa using h
  rw [parseTokens, (reads_parseBody tokens).loop_eq (by simp) conf (length_lt_fuel hdrop)
    (Nat.zero_le _) hdrop, Nat.zero_add, ← h]

/-- A file is refused with a `ConfigurationException`, or it consists of items and the cursor reaches
its end. -/
theorem parseTokens_cases (tokens : List ConfToken) (conf : ConfFile) :
    (∃ (items : List Item) (conf' : ConfFile), tokens = items.flatMap Item.items.tokens ∧
        items.foldlM (fun conf i => i.eval conf) conf = .ok conf' ∧
        parseTokens tokens conf = .ok (tokens.length, conf')) ∨
      ∃ e, parseTokens tokens conf = .error (.exception e) := by
  have hfuel : tokens.length - 0 < tokens.length + 1 := Nat.lt_succ_of_le (Nat.sub_le ..)
  rcases (reads_parseBody tokens).loop_cases conf (Nat.zero_le _) hfuel with
    ⟨items, rest, conf', hitems, hstop, hfold, hloop⟩ | he
  · obtain rfl : rest = [] := by
      cases rest with
      | nil => rfl
      | cons t rest => exact absurd (hstop t (by simp)) Bool.false_ne_true
    have htokens : tokens = items.flatMap Item.items.tokens := by simpa using hitems
    refine Or.inl ⟨items, conf', htokens, hfold, hloop.trans ?_⟩
    rw [Nat.zero_add, ← htokens]
  · exact Or.inr he

end ConfFile
end Webserv
