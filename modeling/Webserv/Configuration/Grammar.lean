import Webserv.Configuration.Items
import Mathlib.Computability.Language
import Mathlib.Data.List.Chain
import Mathlib.Order.CompletePartialOrder

/-!
# The grammar of configuration files

What a configuration file should be: a language over the tokens.  The parser accepts more, since `_loadType`
takes any first token of a line as the MIME type.  The files it should not accept are those with a `;` or
`{` right after a `;` or `{`.

* `grammar`: the language of configuration files.
* `Separated`: no `;` or `{` follows a `;` or `{`.
* `mem_grammar_iff`: an accepted file is in the grammar exactly if it is separated.

## Why a language

The parser is a set of handlers that call each other, and nowhere in it is written what a file looks like.
The grammar is, in the operations of languages: a timeout, a server or a types block, any number of times,
and so on down to words and signs.  It is the statement against which the parser is compared.

## Why separation is the difference

Everywhere but in a `types` block the parser checks that a directive is one of its table, so no sign can
stand at the start of a line.  In a `types` block the first token of a line may be a `;` or a `{`, and it
becomes a MIME type.  Such a line begins right after the `;` of another one or the `{` of the block, so two
signs follow each other, which happens in no file of the grammar.  Conversely, in a file that the parser
accepts and that has no such place, every first token is a word.  `Starts` and `AllStart` are the induction
for the first half: each language is separated, and what begins with a word can follow anything.
-/

namespace Webserv

open ConfFile TokenCursor
open scoped Computability

namespace Grammar

/-! ## The grammar -/

/-- One word: a token that is not a metacharacter. -/
def word : Language ConfToken := {l | ∃ t : ConfToken, l = [t] ∧ t.isMetatoken = false}

/-- One metacharacter. -/
def sym (c : Byte) : Language ConfToken := {l | ∃ t : ConfToken, l = [t] ∧ t.is c = true}

/-- One token with the given name. -/
def named (name : Bytes) : Language ConfToken := {l | ∃ t : ConfToken, l = [t] ∧ t.str = name}

/-- A timeout name, one word, `;`. -/
def timeout : Language ConfToken :=
  (⨆ type : Timeout, named type.directive.name) * (word * sym semicolon)

/-- The name of a directive of a location, words, `;`. -/
def locationLine : Language ConfToken :=
  (⨆ dir : LocationDirective, named dir.name) * (word∗ * sym semicolon)

/-- The name of a directive of a server, words, `;`. -/
def serverLine : Language ConfToken :=
  (⨆ dir : ServerLine, named dir.directive.name) * (word∗ * sym semicolon)

/-- `location`, one word, `{`, directives of a location, `}`. -/
def location : Language ConfToken :=
  named ServerDirective.location.name * (word * (sym blockOpen * (locationLine∗ * sym blockClose)))

/-- `server`, `{`, directives and locations, `}`. -/
def server : Language ConfToken :=
  named Directive.server.name *
    (sym blockOpen * ((serverLine + locationLine + location)∗ * sym blockClose))

/-- One or more words, `;`. -/
def typesLine : Language ConfToken := word * (word∗ * sym semicolon)

/-- `types`, `{`, lines, `}`. -/
def types : Language ConfToken :=
  named Directive.types.name * (sym blockOpen * (typesLine∗ * sym blockClose))

/-- A configuration file: timeouts, servers and types, in any order and as often as they come. -/
def grammar : Language ConfToken := (timeout + server + types)∗

/-! ## Separated files -/

/-- A `;` or `{`. -/
def opens (t : ConfToken) : Bool := t.is semicolon || t.is blockOpen

/-- No `;` or `{` stands right after a `;` or `{`. -/
def Separated (tokens : List ConfToken) : Prop :=
  tokens.IsChain fun t u => ¬ (opens t = true ∧ opens u = true)

instance (tokens : List ConfToken) : Decidable (Separated tokens) :=
  inferInstanceAs (Decidable (tokens.IsChain _))

theorem opens_of_not_isMetatoken {t : ConfToken} (h : t.isMetatoken = false) : opens t = false := by
  simp only [ConfToken.isMetatoken, Bool.or_eq_false_iff] at h
  simp only [opens, Bool.or_eq_false_iff]
  exact ⟨h.2, h.1.1⟩

theorem opens_of_blockClose {t : ConfToken} (h : t.is blockClose = true) : opens t = false := by
  simp only [ConfToken.is, decide_eq_true_eq] at h
  simp only [opens, ConfToken.is, h]
  decide

/-- A separated list that does not start with a `;` or `{`. -/
structure Starts (l : List ConfToken) : Prop where
  separated : Separated l
  head : ∀ t ∈ l.head?, opens t = false

/-- Any token may stand before such a list. -/
theorem Starts.cons_separated {l : List ConfToken} (h : Starts l) (t : ConfToken) :
    Separated (t :: l) := by
  refine List.isChain_cons.mpr ⟨fun u hu hboth => ?_, h.separated⟩
  rw [h.head u hu] at hboth
  exact Bool.false_ne_true hboth.2

/-- A token other than `;` and `{` may stand before any separated list. -/
theorem starts_cons {t : ConfToken} {l : List ConfToken} (ht : opens t = false) (h : Separated l) :
    Starts (t :: l) where
  separated := by
    refine List.isChain_cons.mpr ⟨fun u _ hboth => ?_, h⟩
    rw [ht] at hboth
    exact Bool.false_ne_true hboth.1
  head u hu := by
    obtain rfl : t = u := by simpa using hu
    exact ht

theorem starts_nil : Starts [] := ⟨.nil, by simp⟩

theorem Starts.append {l m : List ConfToken} (hl : Starts l) (hm : Starts m) : Starts (l ++ m) := by
  cases l with
  | nil => exact hm
  | cons t l =>
    refine ⟨List.isChain_append.mpr ⟨hl.separated, hm.separated, fun u _ v hv hboth => ?_⟩, hl.head⟩
    rw [hm.head v hv] at hboth
    exact Bool.false_ne_true hboth.2

/-- Every list of the language starts apart from what stands before it. -/
def AllStart (L : Language ConfToken) : Prop := ∀ l ∈ L, Starts l

theorem AllStart.kstar {L : Language ConfToken} (h : AllStart L) : AllStart L∗ := by
  rintro l ⟨pieces, rfl, hpieces⟩
  induction pieces with
  | nil => exact starts_nil
  | cons piece pieces ih =>
    rw [List.flatten_cons]
    exact (h piece (hpieces piece List.mem_cons_self)).append
      (ih fun l hl => hpieces l (List.mem_cons_of_mem piece hl))

theorem AllStart.add {L M : Language ConfToken} (hL : AllStart L) (hM : AllStart M) :
    AllStart (L + M) := by
  rintro l (hl | hl)
  · exact hL l hl
  · exact hM l hl

/-- Every list of the language is separated. -/
def AllSeparated (L : Language ConfToken) : Prop := ∀ l ∈ L, Separated l

theorem AllStart.separated {L : Language ConfToken} (h : AllStart L) : AllSeparated L :=
  fun l hl => (h l hl).separated

/-- The language of one token, neither `;` nor `{`, which may therefore follow any other. -/
def IsHead (L : Language ConfToken) : Prop := ∀ l ∈ L, ∃ t, l = [t] ∧ opens t = false

theorem isHead_word : IsHead word := by
  rintro _ ⟨t, rfl, ht⟩
  exact ⟨t, rfl, opens_of_not_isMetatoken ht⟩

theorem isHead_named {name : Bytes} (h : 1 < name.length) : IsHead (named name) := by
  rintro _ ⟨t, rfl, rfl⟩
  exact ⟨t, rfl, opens_of_not_isMetatoken (isMetatoken_of_length h)⟩

theorem isHead_iSup {ι : Type} {L : ι → Language ConfToken} (h : ∀ i, IsHead (L i)) :
    IsHead (⨆ i, L i) := by
  intro l hl
  obtain ⟨i, hi⟩ := Language.mem_iSup.mp hl
  exact h i l hi

theorem IsHead.mul {L M : Language ConfToken} (hL : IsHead L) (hM : AllSeparated M) :
    AllStart (L * M) := by
  rintro _ ⟨l, hl, m, hm, rfl⟩
  obtain ⟨t, rfl, ht⟩ := hL l hl
  exact starts_cons ht (hM m hm)

theorem AllStart.sym_mul {L : Language ConfToken} (h : AllStart L) (c : Byte) :
    AllSeparated (sym c * L) := by
  rintro _ ⟨_, ⟨t, rfl, -⟩, l, hl, rfl⟩
  exact (h l hl).cons_separated t

theorem allSeparated_sym (c : Byte) : AllSeparated (sym c) := by
  rintro _ ⟨t, rfl, -⟩
  exact .singleton t

theorem allStart_close : AllStart (sym blockClose) := by
  rintro _ ⟨t, rfl, ht⟩
  exact starts_cons (opens_of_blockClose ht) .nil

theorem AllStart.mul {L M : Language ConfToken} (hL : AllStart L) (hM : AllStart M) :
    AllStart (L * M) := by
  rintro _ ⟨l, hl, m, hm, rfl⟩
  exact (hL l hl).append (hM m hm)

/-- Words and the token that ends them. -/
theorem allSeparated_words (c : Byte) : AllSeparated (word∗ * sym c) := by
  rintro _ ⟨_, ⟨pieces, rfl, hpieces⟩, m, hm, rfl⟩
  induction pieces with
  | nil => exact allSeparated_sym c m hm
  | cons piece pieces ih =>
    obtain ⟨t, rfl, ht⟩ := hpieces piece List.mem_cons_self
    have hrest := ih fun l hl => hpieces l (List.mem_cons_of_mem _ hl)
    exact (starts_cons (opens_of_not_isMetatoken ht) hrest).separated

/-- Every list of the grammar starts apart from what stands before it: the lines first, then the blocks that
they are parts of. -/
theorem allStart_grammar : AllStart grammar := by
  have htimeout : AllStart timeout :=
    (isHead_iSup fun type => isHead_named type.directive.one_lt_length_name).mul
      (isHead_word.mul (allSeparated_sym semicolon)).separated
  have hlocationLine : AllStart locationLine :=
    (isHead_iSup fun dir => isHead_named dir.one_lt_length_name).mul (allSeparated_words semicolon)
  have hserverLine : AllStart serverLine :=
    (isHead_iSup fun dir => isHead_named dir.directive.one_lt_length_name).mul
      (allSeparated_words semicolon)
  have hlocation : AllStart location :=
    (isHead_named ServerDirective.location.one_lt_length_name).mul
      (isHead_word.mul ((hlocationLine.kstar.mul allStart_close).sym_mul blockOpen)).separated
  have hserver : AllStart server :=
    (isHead_named Directive.server.one_lt_length_name).mul
      ((((hserverLine.add hlocationLine).add hlocation).kstar.mul allStart_close).sym_mul blockOpen)
  have htypes : AllStart types :=
    (isHead_named Directive.types.one_lt_length_name).mul
      (((isHead_word.mul (allSeparated_words semicolon)).kstar.mul allStart_close).sym_mul blockOpen)
  exact ((htimeout.add hserver).add htypes).kstar

/-! ## The items are in the grammar -/

theorem words_mem {ws : List ConfToken} (h : Words ws) : ws ∈ word∗ := by
  refine ⟨ws.map fun w => [w], ?_, fun l hl => ?_⟩
  · rw [← List.flatMap_def, List.flatMap_singleton']
  · obtain ⟨w, hw, rfl⟩ := List.mem_map.mp hl
    exact ⟨w, rfl, h w hw⟩

theorem sym_mem {c : Byte} {t : ConfToken} (h : t.is c = true) : [t] ∈ sym c := ⟨t, rfl, h⟩

theorem named_mem {ι : Type} {name : ι → Bytes} {t : ConfToken} {i : ι} (h : t.str = name i) :
    [t] ∈ ⨆ i, named (name i) :=
  Language.mem_iSup.mpr ⟨i, t, rfl, h⟩

/-- A line is in the language of its table. -/
theorem line_mem {δ : Type} {name : δ → Bytes} (l : Line δ name) :
    l.tokens ∈ (⨆ dir, named (name dir)) * (word∗ * sym semicolon) :=
  Language.append_mem_mul (a := [l.directive]) (named_mem l.directive_str)
    (Language.append_mem_mul (words_mem l.words) (sym_mem l.closing_is))

theorem flatMap_mem {ι : Type} {I : Items ConfToken ι} {L : Language ConfToken} {items : List ι}
    (h : ∀ i ∈ items, I.tokens i ∈ L) : items.flatMap I.tokens ∈ L∗ := by
  refine ⟨items.map I.tokens, List.flatMap_def .., fun l hl => ?_⟩
  obtain ⟨i, hi, rfl⟩ := List.mem_map.mp hl
  exact h i hi

theorem block_mem {ι : Type} {I : Items ConfToken ι} {L : Language ConfToken} {name : Bytes}
    {b : Block I} (hname : b.directive.str = name) (h : ∀ i ∈ b.body, I.tokens i ∈ L) :
    b.init ++ [b.closing] ∈ named name * (sym blockOpen * (L∗ * sym blockClose)) :=
  Language.append_mem_mul (a := [b.directive]) ⟨_, rfl, hname⟩
    (Language.append_mem_mul (a := [b.opening]) (sym_mem b.opening_is)
      (Language.append_mem_mul (flatMap_mem h) (sym_mem b.closing_is)))

theorem serverEntry_mem (e : ServerEntry) :
    ServerEntry.items.tokens e ∈ serverLine + locationLine + location := by
  cases e with
  | line l => exact Or.inl (Or.inl (line_mem l))
  | setting l => exact Or.inl (Or.inr (line_mem l))
  | location e =>
    refine Or.inr (Language.append_mem_mul (a := [e.directive]) ⟨_, rfl, e.directive_str⟩
      (Language.append_mem_mul (a := [e.target]) ⟨_, rfl, e.target_word⟩
        (Language.append_mem_mul (a := [e.opening]) (sym_mem e.opening_is)
          (Language.append_mem_mul (flatMap_mem fun l _ => line_mem l) (sym_mem e.closing_is)))))

/-! ## Accepted files -/

/-- In a separated file the types of a block are words. -/
theorem typeLines_words {rest : List ConfToken} : ∀ {lines : List TypeLine} {p : ConfToken},
    opens p = true → Separated (p :: (lines.flatMap TypeLine.items.tokens ++ rest)) →
      ∀ l ∈ lines, l.type.isMetatoken = false
  | [], _, _, _ => fun _ h => nomatch h
  | l :: lines, p, hp, h => by
    have hsplit : Separated (p :: l.type :: (l.exts ++
        l.closing :: (lines.flatMap TypeLine.items.tokens ++ rest))) := by
      simpa [Items.tokens, TypeLine.items] using h
    obtain ⟨hne, htail⟩ := List.isChain_cons_cons.mp hsplit
    have htype : opens l.type = false := Bool.eq_false_iff.mpr fun htype => hne ⟨hp, htype⟩
    have hclosing : opens l.closing = true := by rw [opens, l.closing_is, Bool.true_or]
    have hrest := typeLines_words hclosing (htail.suffix (List.suffix_append (l.type :: l.exts) _))
    intro l' hl'
    rcases List.mem_cons.mp hl' with rfl | hl'
    · simp only [opens, Bool.or_eq_false_iff] at htype
      simp only [ConfToken.isMetatoken, htype.1, htype.2, l'.type_is, Bool.or_self]
    · exact hrest l' hl'

/-- An item of an accepted and separated file is in the grammar. -/
theorem item_mem {i : Item} {conf conf' : ConfFile} (heval : i.eval conf = .ok conf')
    (h : Separated (Item.items.tokens i)) : Item.items.tokens i ∈ timeout + server + types := by
  cases i with
  | timeout l =>
    obtain ⟨w, hargs⟩ := exists_word_of_oneArgValue heval
    have hword : w.isMetatoken = false := l.words w (by rw [hargs]; exact List.mem_singleton_self w)
    have htokens : Item.items.tokens (.timeout l) = [l.directive] ++ ([w] ++ [l.closing]) := by
      simp [Items.tokens, Item.items, Item.init, Item.last, hargs]
    rw [htokens]
    exact Or.inl (Or.inl (Language.append_mem_mul (named_mem l.directive_str)
      (Language.append_mem_mul ⟨w, rfl, hword⟩ (sym_mem l.closing_is))))
  | server b hname => exact Or.inl (Or.inr (block_mem hname fun e _ => serverEntry_mem e))
  | types b hname =>
    have hwords := @typeLines_words [b.closing] _ _
      (by rw [opens, b.opening_is, Bool.or_true]) (h.suffix (List.suffix_cons b.directive _))
    exact Or.inr (block_mem hname fun l hl =>
      Language.append_mem_mul (a := [l.type]) ⟨_, rfl, hwords l hl⟩
        (Language.append_mem_mul (words_mem l.words) (sym_mem l.closing_is)))

/-- What is accepted by a fold is accepted at every element. -/
theorem exists_ok_of_mem {σ ι : Type} {f : σ → ι → Except ConfError σ} :
    ∀ {l : List ι} {s s' : σ}, l.foldlM f s = .ok s' → ∀ i ∈ l, ∃ t t', f t i = .ok t'
  | [], _, _, _ => fun _ h => nomatch h
  | i :: l, s, s', h => by
    rw [List.foldlM_cons] at h
    cases hi : f s i with
    | error e =>
      rw [hi] at h
      cases h
    | ok t =>
      rw [hi] at h
      intro j hj
      rcases List.mem_cons.mp hj with rfl | hj
      · exact ⟨s, t, hi⟩
      · exact exists_ok_of_mem h j hj

/-- The pieces of a separated list are separated. -/
theorem separated_of_mem {ι : Type} {f : ι → List ConfToken} :
    ∀ {l : List ι}, Separated (l.flatMap f) → ∀ i ∈ l, Separated (f i)
  | [], _ => fun _ h => nomatch h
  | i :: l, h => by
    rw [List.flatMap_cons] at h
    obtain ⟨hi, hl, -⟩ := List.isChain_append.mp h
    intro j hj
    rcases List.mem_cons.mp hj with rfl | hj
    · exact hi
    · exact separated_of_mem hl j hj

/-- **The grammar.**  A file that the parser accepts is in the grammar exactly if no `;` or `{` stands
right after a `;` or `{`. -/
theorem mem_grammar_iff {tokens : List ConfToken} {conf conf' : ConfFile} {token : Nat}
    (h : parseTokens tokens conf = .ok (token, conf')) : tokens ∈ grammar ↔ Separated tokens := by
  refine ⟨fun hmem => (allStart_grammar tokens hmem).separated, fun hseparated => ?_⟩
  rcases parseTokens_cases tokens conf with ⟨items, conf'', rfl, hfold, -⟩ | ⟨e, he⟩
  · refine flatMap_mem fun i hi => ?_
    obtain ⟨s, s', heval⟩ := exists_ok_of_mem hfold i hi
    exact item_mem heval (separated_of_mem hseparated i hi)
  · rw [he] at h
    cases h

/-- A file of a timeout and a server. -/
def plainTokens : List ConfToken := tokenizeFile (bytes "send_timeout 5; server { listen 80; }")

set_option maxRecDepth 10000 in
theorem mem_grammar_iff_plain : plainTokens ∈ grammar ↔ Separated plainTokens := by
  have haccepted : (parseTokens plainTokens init).isOk = true := by decide +kernel
  cases hparse : parseTokens plainTokens init with
  | error e =>
    rw [hparse] at haccepted
    cases haccepted
  | ok r => exact @mem_grammar_iff _ _ r.2 _ hparse

/-- A file with a `;` as the MIME type of `html`. -/
def metaTypeTokens : List ConfToken := tokenizeFile (bytes "types { ; html ; }")

/-- The parser accepts it, and files the extension under the type `;`. -/
theorem metaType_notMem :
    (∃ token conf, parseTokens metaTypeTokens init = .ok (token, conf) ∧
        conf.mimetypes.find? (bytes "html") = some (bytes ";")) ∧ metaTypeTokens ∉ grammar := by
  refine ⟨⟨6, _, rfl, by decide +kernel⟩, fun hmem => ?_⟩
  have hseparated := (allStart_grammar _ hmem).separated
  exact absurd hseparated (by decide +kernel)

end Grammar
end Webserv
