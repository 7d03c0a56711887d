import Webserv.Configuration.Routing
import Webserv.Configuration.TokenLines

/-!
# The texts of a configuration

Nothing is put together from parts: the texts that a configuration hands to the server are words of the
file, or empty.  So what holds of every token of the file holds of them.

* `Entry.words`: the words of an entry.
* `redirection_of_serverBlock`: where the locations of a block redirect to.
* `ConfFile.Texts`, `texts_of_parse`: the redirections and the MIME types of an accepted file.

## Why any property

What is asked of these texts is that they fit on a line of a response.  The parser has nothing to do with
responses, and the only thing it can promise is where a text comes from.  So the statement has a property as
its parameter, and passes it from the tokens to the texts.  That no token has a line end in it is a fact
about the scanner, and the two are put together where heads are considered.
-/

namespace Webserv

open ConfFile TokenCursor

variable {T : Bytes → Prop}

/-! ## Loops -/

/-- What every iteration preserves, the loop preserves. -/
theorem foldlM_invariant {σ ι : Type} {f : σ → ι → Option σ} {I : σ → Prop} {l : List ι} {s s' : σ}
    (h : l.foldlM f s = some s') (hstep : ∀ i ∈ l, ∀ s s', f s i = some s' → I s → I s') (hs : I s) :
    I s' := by
  induction l generalizing s with
  | nil => rwa [← Option.some.inj h]
  | cons i l ih =>
    rw [List.foldlM_cons] at h
    obtain ⟨t, hi, hrest⟩ := Option.bind_eq_some_iff.mp h
    exact ih hrest (fun j hj => hstep j (List.mem_cons_of_mem i hj)) (hstep i List.mem_cons_self s t hi hs)

theorem ConfFile.foldlM_ok {σ ι : Type} {f : σ → ι → Except ConfError σ} {I : σ → Prop} {l : List ι}
    {s s' : σ} (h : l.foldlM f s = .ok s') (hstep : ∀ i ∈ l, ∀ s s', f s i = .ok s' → I s → I s')
    (hs : I s) : I s' := by
  have hsome := toOption_foldlM f l s
  rw [h] at hsome
  refine foldlM_invariant hsome.symm (fun i hi s s' hf => hstep i hi s s' ?_) hs
  cases hx : f s i with
  | error e =>
    rw [hx] at hf
    cases hf
  | ok t =>
    rw [hx] at hf
    rw [Option.some.inj hf]

/-! ## Redirections -/

/-- The words of an entry. -/
def Entry.words : Entry → List Bytes
  | line _ args => args
  | setting _ args => args
  | location target settings => target :: settings.flatMap Prod.snd

/-- The text of a redirection is a word of its line. -/
theorem LocationDirective.redirection_of_apply {dir : LocationDirective} {args : List Bytes}
    {location location' : LocationBlock} (h : dir.apply args location = some location')
    (hargs : ∀ w ∈ args, T w) (hlocation : T location.redirection.2) : T location'.redirection.2 := by
  by_cases hdir : dir = redirect
  · subst hdir
    rcases args with _ | ⟨code, _ | ⟨body, _ | _⟩⟩
    · cases h
    · cases h
    · obtain ⟨status, -, hset⟩ := Option.bind_eq_some_iff.mp h
      unfold LocationBlock.setRedirect at hset
      split_ifs at hset
      obtain rfl := Option.some.inj hset
      exact hargs body (by simp)
    · cases h
  · have hsame : location'.redirection = location.redirection :=
      (sets_of_apply h).others redirect (Ne.symm hdir)
    rwa [hsame]

theorem redirection_of_locationBlock {target : Bytes} {settings : List Setting} {location : LocationBlock}
    (h : locationBlock target settings = some location) (hwords : ∀ s ∈ settings, ∀ w ∈ s.2, T w)
    (hnil : T []) : T location.redirection.2 := by
  unfold locationBlock at h
  split_ifs at h
  refine foldlM_invariant (I := fun location => T location.redirection.2) h (fun s hs _ _ happly => ?_) hnil
  exact LocationDirective.redirection_of_apply happly (hwords s hs)

/-- The redirections of a scope, of the locations that are complete and of the settings that they will
inherit. -/
structure ConfFile.ServerScope.Texts (T : Bytes → Prop) (scope : ServerScope) : Prop where
  global : T scope.globalLocation.redirection.2
  locations : ∀ loc ∈ scope.server.locations, T loc.redirection.2

theorem Entry.texts_of_apply {e : Entry} {scope scope' : ServerScope} (h : e.apply scope = some scope')
    (hwords : ∀ w ∈ e.words, T w) (hnil : T []) (hscope : scope.Texts T) : scope'.Texts T := by
  cases e with
  | line dir args =>
    obtain ⟨server, hserver, rfl⟩ := Option.map_eq_some_iff.mp h
    refine ⟨hscope.global, fun loc hloc => hscope.locations loc ?_⟩
    rwa [← ServerLine.locations_of_apply hserver]
  | setting dir args =>
    obtain ⟨location, hlocation, rfl⟩ := Option.map_eq_some_iff.mp h
    exact ⟨LocationDirective.redirection_of_apply hlocation hwords hscope.global, hscope.locations⟩
  | location target settings =>
    obtain ⟨location, hlocation, rfl⟩ := Option.map_eq_some_iff.mp h
    refine ⟨hscope.global, fun loc hloc => ?_⟩
    rcases List.mem_append.mp hloc with hloc | hloc
    · exact hscope.locations loc hloc
    · rw [List.mem_singleton.mp hloc]
      refine redirection_of_locationBlock hlocation (fun s hs w hw => hwords w ?_) hnil
      exact List.mem_cons_of_mem target (List.mem_flatMap.mpr ⟨s, hs, hw⟩)

/-- The locations of a block redirect to words of its entries. -/
theorem redirection_of_serverBlock {entries : List Entry} {server : ServerBlock}
    (h : serverBlock entries = some server) (hwords : ∀ e ∈ entries, ∀ w ∈ e.words, T w) (hnil : T []) :
    ∀ loc ∈ server.locations, T loc.redirection.2 := by
  obtain ⟨scope, hscope, rfl⟩ := Option.map_eq_some_iff.mp h
  have htexts : scope.Texts T := by
    refine foldlM_invariant hscope (fun e he _ _ happly => e.texts_of_apply happly (hwords e he) hnil) ?_
    exact ⟨hnil, fun loc hloc => absurd hloc List.not_mem_nil⟩
  have hlocations : scope.finish.locations =
      scope.server.locations.map fun loc => loc.fill scope.globalLocation := by
    unfold ServerScope.finish
    dsimp only
    split_ifs <;> rfl
  rw [hlocations]
  refine List.forall_mem_map.mpr fun loc hloc => ?_
  show T (if loc.redirection.1 = 0 then scope.globalLocation.redirection else loc.redirection).2
  split_ifs
  · exact htexts.global
  · exact htexts.locations loc hloc

/-! ## The file -/

/-- The texts that clients get to see: where locations redirect to, and the MIME types. -/
structure ConfFile.Texts (T : Bytes → Prop) (conf : ConfFile) : Prop where
  redirections : ∀ block ∈ conf.blocks, ∀ loc ∈ block.locations, T loc.redirection.2
  mimetypes : ∀ e ∈ conf.mimetypes.entries, T e.2

/-- The words of a server block are tokens of it. -/
theorem words_of_tokens {b : Block ServerEntry.items} (h : ∀ t ∈ b.init, T t.str) :
    ∀ e ∈ b.texts, ∀ w ∈ e.words, T w := by
  refine List.forall_mem_map.mpr fun e he w hw => ?_
  suffices hmem : ∃ t ∈ ServerEntry.items.tokens e, t.str = w by
    obtain ⟨t, ht, rfl⟩ := hmem
    refine h t (List.mem_cons_of_mem _ (List.mem_cons_of_mem _ ?_))
    exact List.mem_flatMap.mpr ⟨e, he, ht⟩
  cases e with
  | line l =>
    obtain ⟨t, ht, rfl⟩ := List.mem_map.mp hw
    exact ⟨t, by simp [Items.tokens, ServerEntry.items, ServerEntry.init, ht], rfl⟩
  | setting l =>
    obtain ⟨t, ht, rfl⟩ := List.mem_map.mp hw
    exact ⟨t, by simp [Items.tokens, ServerEntry.items, ServerEntry.init, ht], rfl⟩
  | location e =>
    rcases List.mem_cons.mp hw with rfl | hw
    · exact ⟨e.target, by simp [Items.tokens, ServerEntry.items, ServerEntry.init, LocationEntry.init], rfl⟩
    · obtain ⟨s, hs, hw⟩ := List.mem_flatMap.mp hw
      obtain ⟨l, hl, rfl⟩ := List.mem_map.mp hs
      obtain ⟨t, ht, rfl⟩ := List.mem_map.mp hw
      have hline : t ∈ l.tokens := by simp [Line.tokens, Line.items, Items.tokens, ht]
      refine ⟨t, List.mem_append_left _ ?_, rfl⟩
      show t ∈ e.directive :: e.target :: e.opening :: e.lines.flatMap Line.tokens
      simp only [List.mem_cons, List.mem_flatMap]
      exact Or.inr (Or.inr (Or.inr ⟨l, hl, hline⟩))

theorem texts_of_takeTimeout {type : Timeout} {directive value : ConfToken} {conf conf' : ConfFile}
    (h : takeTimeout type directive value conf = .ok conf') (hconf : conf.Texts T) : conf'.Texts T := by
  unfold takeTimeout at h
  cases hvalue : stoi (-2 ^ 31) int32Max value.str with
  | none =>
    rw [hvalue] at h
    cases h
  | some duration =>
    rw [hvalue] at h
    dsimp only at h
    split_ifs at h
    obtain rfl := Except.ok.inj h
    exact ⟨hconf.redirections, hconf.mimetypes⟩

theorem Item.texts_of_eval {i : Item} {conf conf' : ConfFile} (h : i.eval conf = .ok conf')
    (htokens : ∀ t ∈ Item.items.tokens i, T t.str) (hnil : T []) (hconf : conf.Texts T) :
    conf'.Texts T := by
  have hinit : ∀ t ∈ i.init, T t.str := fun t ht => htokens t (List.mem_append_left _ ht)
  cases i with
  | timeout l =>
    obtain ⟨w, hargs⟩ := exists_word_of_oneArgValue h
    change oneArgValue (takeTimeout l.dir) l.directive l.args conf = .ok conf' at h
    rw [hargs] at h
    exact texts_of_takeTimeout h hconf
  | server b hname =>
    change (Item.scope b).map _ = .ok conf' at h
    cases hscope : Item.scope b with
    | error e =>
      rw [hscope] at h
      cases h
    | ok scope =>
      rw [hscope] at h
      obtain rfl := Except.ok.inj h
      have hblock : serverBlock b.texts = some scope.finish := by
        rw [serverBlock, ← scope_toOption, hscope]
        rfl
      refine ⟨fun block hmem => ?_, hconf.mimetypes⟩
      rcases List.mem_append.mp hmem with hmem | hmem
      · exact hconf.redirections block hmem
      · rw [List.mem_singleton.mp hmem]
        exact redirection_of_serverBlock hblock (words_of_tokens hinit) hnil
  | types b hname =>
    change (b.body.foldlM (fun mimetypes l => TypeLine.eval l mimetypes) conf.mimetypes).map _ =
      .ok conf' at h
    cases htypes : b.body.foldlM (fun mimetypes l => TypeLine.eval l mimetypes) conf.mimetypes with
    | error e =>
      rw [htypes] at h
      cases h
    | ok mimetypes =>
      rw [htypes] at h
      obtain rfl := Except.ok.inj h
      refine ⟨hconf.redirections, ?_⟩
      refine foldlM_ok (I := fun mimetypes : StringMap => ∀ e ∈ mimetypes.entries, T e.2) htypes ?_
        hconf.mimetypes
      intro l hl types types' hline
      refine foldlM_ok (I := fun mimetypes : StringMap => ∀ e ∈ mimetypes.entries, T e.2) hline ?_
      intro ext _ types types' hadd htypes e he
      obtain rfl := Except.ok.inj hadd
      rcases OrderedMap.mem_insertEntry he with rfl | he
      · refine hinit l.type (List.mem_cons_of_mem _ (List.mem_cons_of_mem _ ?_))
        exact List.mem_flatMap.mpr ⟨l, hl, by simp [Items.tokens, TypeLine.items]⟩
      · exact htypes e he

/-- **Words of the file.**  What holds of every token of an accepted file, and of the empty text, holds of
its redirections and MIME types. -/
theorem texts_of_parse {content : Bytes} {token : Nat} {conf : ConfFile}
    (h : parse ConfFile.init (.ok content) = .ok (token, conf)) (hnil : T [])
    (htokens : ∀ t ∈ tokenizeFile content, T t.str) : conf.Texts T := by
  change parseTokens (tokenizeFile content) ConfFile.init = .ok (token, conf) at h
  rcases parseTokens_cases (tokenizeFile content) ConfFile.init with
    ⟨items, conf', hitems, hfold, hparse⟩ | ⟨e, he⟩
  · obtain ⟨-, rfl⟩ := Prod.mk.inj (Except.ok.inj (hparse.symm.trans h))
    refine foldlM_ok hfold (fun i hi _ _ heval => i.texts_of_eval heval (fun t ht => htokens t ?_) hnil) ?_
    · rw [hitems]
      exact List.mem_flatMap.mpr ⟨i, hi, ht⟩
    · exact ⟨fun block hmem => absurd hmem List.not_mem_nil, fun e he => absurd he List.not_mem_nil⟩
  · rw [he] at h
    cases h

end Webserv
