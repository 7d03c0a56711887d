import Webserv.Configuration.Inheritance
import Mathlib.Data.List.Pairwise

/-!
# The order of the error pages

`_errorPageDirective` resolves its file against the root that was read before it, and skips its arguments
while there is none.  Every other setting of a server is resolved at the end of its block.

* `resolved`: the error pages that a block makes, each with the root it was read under.
* `isSome_serverBlock_iff`: a block is accepted when each of its entries is, and when the codes of the error
  pages after its root are codes.
* `findErrorPage_eq_some_iff`: the map of an accepted block.
* `errorPages_order`: when the order of the directives does not matter.

## Why this directive is different

The path of a page needs a root, and the handler has no access to the settings of the block but for a copy
of the root, which is made after each directive of a location.  A directive that stands before the root
finds the copy empty.  It then steps over its arguments without looking at them, so a wrong code is not
refused there either.  Both effects depend on one thing, whether the directive stands after the root, and
`afterRoot` is the list of those that do.

## Why permutations

The question is whether an administrator may write the directives in any order.  For an accepted block with
one root and with no code in two directives the answer is exact: a permutation is accepted with the same
pages just when the same `error_page` directives stand after the root.  The two assumptions are those under
which order does not matter anyway: with two roots each page has the one before it, and with a repeated code
the later directive wins.
-/

namespace Webserv

open ConfFile TokenCursor

/-! ## The error pages of a block -/

namespace Entry

/-- The arguments of an `error_page` directive. -/
def page? : Entry → Option (List Bytes)
  | line .errorPage args => some args
  | _ => none

/-- The path of a `root` directive at server level. -/
def root? : Entry → Option Path
  | setting .root [value] => some (Path.ofString (value ++ [slash]))
  | _ => none

/-- The error pages of a block, in order. -/
def pages (entries : List Entry) : List (List Bytes) := entries.filterMap page?

/-- The roots of a block, in order. -/
def roots (entries : List Entry) : List Path := entries.filterMap root?

/-- The entries after the first root of a block, whose error pages are the ones that the map gets. -/
def afterRoot (entries : List Entry) : List Entry :=
  (entries.dropWhile fun e => e.root?.isNone).tail

/-- The status codes that an `error_page` directive names. -/
def codes (args : List Bytes) : List Nat := args.dropLast.filterMap errorStatus

/-- The root is set at most once at server level. -/
def OneRoot (entries : List Entry) : Prop := (roots entries).length ≤ 1

/-- No status code is named in two `error_page` directives, so that their order does not decide which page
is found. -/
def DistinctCodes (entries : List Entry) : Prop :=
  (pages entries).Pairwise fun args args' => (codes args).Disjoint (codes args')

/-- All arguments of an `error_page` directive but the last are status codes. -/
def ValidCodes (args : List Bytes) : Prop := ∀ w ∈ args.dropLast, (errorStatus w).isSome = true

/-- The entry is accepted as long as no root is known. -/
def Fits (e : Entry) : Prop := (e.apply {}).isSome = true

/-- The error page that an entry makes, unless it is skipped. -/
def made (root : Path) (e : Entry) : List (Path × List Bytes) :=
  if root.isEmpty then [] else (e.page?.map fun args => (root, args)).toList

/-- The error pages of a block that are not skipped, each with the root it was read under. -/
def resolved : Path → List Entry → List (Path × List Bytes)
  | _, [] => []
  | root, e :: entries => made root e ++ resolved (e.root?.getD root) entries

/-- What an error page does to the map: one binding for each code, all to the same page. -/
def bindings (root : Path) (args : List Bytes) : List (Nat × Path) :=
  (codes args).map fun code => (code, Path.ofString (root.str ++ args.getLastD []))

end Entry

/-! ## What an entry does to the error pages -/

theorem isSome_foldlM_iff {σ ι : Type} {f : σ → ι → Option σ} {p : ι → Prop}
    (h : ∀ s i, (f s i).isSome = true ↔ p i) :
    ∀ {l : List ι} {s : σ}, (l.foldlM f s).isSome = true ↔ ∀ i ∈ l, p i
  | [], _ => by simp
  | i :: l, s => by
    rw [List.foldlM_cons, List.forall_mem_cons, ← h s i]
    cases f s i with
    | none => simp
    | some s' => simpa using isSome_foldlM_iff h

/-- Whether a location accepts a line does not depend on the lines before. -/
theorem LocationDirective.isSome_apply (dir : LocationDirective) (args : List Bytes)
    (location location' : LocationBlock) :
    (dir.apply args location).isSome = (dir.apply args location').isSome := by
  have hmap : ∀ (x : Option Int) (f g : Int → LocationBlock),
      (x.map f).isSome = (x.map g).isSome := fun x _ _ => by cases x <;> rfl
  cases dir with
  | root | clientBodyUploadPath | clientBodyTempPath => rcases args with _ | ⟨_, _ | _⟩ <;> rfl
  | allow =>
    cases args with
    | nil => rfl
    | cons method methods =>
      have hstep : ∀ (location : LocationBlock) (method : Bytes),
          (location.allowMethod method).isSome = true ↔
            (Method.methods.findIdx? fun m => m.1 = method).isSome = true := fun _ _ => by
        rw [LocationBlock.allowMethod, Option.isSome_map]
      exact Bool.eq_iff_iff.mpr
        ((isSome_foldlM_iff hstep).trans (isSome_foldlM_iff hstep).symm)
  | clientMaxBodySize =>
    rcases args with _ | ⟨value, _ | _⟩
    · rfl
    · exact hmap _ _ _
    · rfl
  | autoindex =>
    rcases args with _ | ⟨value, _ | _⟩
    · rfl
    · show (location.setDirListing value).isSome = (location'.setDirListing value).isSome
      unfold LocationBlock.setDirListing
      split_ifs <;> rfl
    · rfl
  | redirect =>
    rcases args with _ | ⟨code, _ | ⟨body, _ | _⟩⟩
    · rfl
    · rfl
    · show ((stoi 0 uint16Max code).bind _).isSome = ((stoi 0 uint16Max code).bind _).isSome
      cases stoi 0 uint16Max code with
      | none => rfl
      | some status =>
        show (location.setRedirect status.toNat body).isSome =
          (location'.setRedirect status.toNat body).isSome
        unfold LocationBlock.setRedirect
        split_ifs <;> rfl
    · rfl
  | index => cases args <;> rfl
  | cgi => rcases args with _ | ⟨_, _ | _⟩ <;> rfl

/-- The loop of `_errorPageDirective` makes the bindings of the codes. -/
theorem errorPages_foldlM {file : Path} : ∀ {ws : List Bytes} {server server' : ServerBlock},
    ws.foldlM (fun server code => (errorStatus code).map fun status =>
        server.addErrorPage status file) server = some server' →
      server'.errorPages = server.errorPages.insertAll
        ((ws.filterMap errorStatus).map fun code => (code, file))
  | [], server, server', h => by rw [← Option.some.inj h]; rfl
  | w :: ws, server, server', h => by
    rw [List.foldlM_cons] at h
    obtain ⟨middle, hfirst, hrest⟩ := Option.bind_eq_some_iff.mp h
    obtain ⟨status, hstatus, rfl⟩ := Option.map_eq_some_iff.mp hfirst
    rw [errorPages_foldlM hrest, List.filterMap_cons_some hstatus]
    rfl

namespace Entry

/-- Whether an entry is accepted. -/
theorem isSome_apply_iff (e : Entry) (scope : ServerScope) :
    (e.apply scope).isSome = true ↔
      e.Fits ∧ (scope.root.isEmpty = false → ∀ args, e.page? = some args → ValidCodes args) := by
  have hempty : ({} : ServerScope).root.isEmpty = true := rfl
  cases e with
  | location target settings =>
    simp [Fits, apply, page?]
  | setting dir args =>
    simp only [Fits, apply, page?, Option.isSome_map,
      dir.isSome_apply args scope.globalLocation ({} : ServerScope).globalLocation]
    simp
  | line dir args =>
    simp only [Fits, apply, Option.isSome_map]
    cases dir with
    | listen => rcases args with _ | ⟨_, _ | _⟩ <;> simp [ServerLine.apply, page?]
    | serverName => cases args <;> simp [ServerLine.apply, page?]
    | errorPage =>
      rcases args with _ | ⟨code, _ | ⟨file, args⟩⟩
      · simp [ServerLine.apply]
      · simp [ServerLine.apply]
      · have hstep : ∀ (server : ServerBlock) (w : Bytes),
            ((errorStatus w).map fun status => server.addErrorPage status (Path.ofString
              (scope.root.str ++ (code :: file :: args).getLast (List.cons_ne_nil _ _)))).isSome = true ↔
              (errorStatus w).isSome = true := fun _ _ => by rw [Option.isSome_map]
        simp only [ServerLine.apply, hempty, if_true, Option.isSome_some, true_and, page?,
          Option.some.injEq, forall_eq']
        split_ifs with hroot
        · simp [hroot]
        · simp only [hroot, ValidCodes, isSome_foldlM_iff hstep, true_implies]

theorem forall_mem_made_iff {e : Entry} {root : Path} :
    (∀ p ∈ made root e, ValidCodes p.2) ↔
      (root.isEmpty = false → ∀ args, e.page? = some args → ValidCodes args) := by
  unfold made
  cases hroot : root.isEmpty with
  | true => simp
  | false => simp

/-- What an entry does to the map of error pages. -/
theorem errorPages_of_apply {e : Entry} {scope scope' : ServerScope} (h : e.apply scope = some scope') :
    scope'.server.errorPages = scope.server.errorPages.insertAll
      ((made scope.root e).flatMap fun p => bindings p.1 p.2) := by
  have hnone : ∀ {e : Entry}, e.page? = none →
      scope.server.errorPages.insertAll ((made scope.root e).flatMap fun p => bindings p.1 p.2) =
        scope.server.errorPages := fun h => by simp [made, h, OrderedMap.insertAll]
  cases e with
  | location target settings =>
    obtain ⟨location, -, rfl⟩ := Option.map_eq_some_iff.mp h
    exact (hnone rfl).symm
  | setting dir args =>
    obtain ⟨location, -, rfl⟩ := Option.map_eq_some_iff.mp h
    exact (hnone rfl).symm
  | line dir args =>
    obtain ⟨server, hserver, rfl⟩ := Option.map_eq_some_iff.mp h
    cases dir with
    | listen =>
      rcases args with _ | ⟨value, _ | _⟩
      · cases hserver
      · obtain ⟨host, -, rfl⟩ := Option.map_eq_some_iff.mp hserver
        exact (hnone rfl).symm
      · cases hserver
    | serverName =>
      cases args with
      | nil => cases hserver
      | cons name names =>
        obtain rfl := (foldl_addName (name :: names) scope.server).symm.trans (Option.some.inj hserver)
        exact (hnone rfl).symm
    | errorPage =>
      rcases args with _ | ⟨code, _ | ⟨file, args⟩⟩
      · cases hserver
      · cases hserver
      · unfold ServerLine.apply at hserver
        dsimp only at hserver
        unfold made
        split_ifs at hserver ⊢ with hroot
        · rw [← Option.some.inj hserver]
          rfl
        · have hlast : (code :: file :: args).getLast (List.cons_ne_nil _ _) =
              (code :: file :: args).getLastD [] := by
            rw [List.getLast_eq_getLastD]
            rfl
          rw [hlast] at hserver
          refine (errorPages_foldlM hserver).trans ?_
          simp [page?, bindings, codes]

/-- What an entry does to the root: a location directive at server level copies it from the settings,
which only `root` changes. -/
theorem root_of_apply {e : Entry} {scope scope' : ServerScope} (h : e.apply scope = some scope')
    (hroot : scope.root = scope.globalLocation.root) :
    scope'.root = e.root?.getD scope.root ∧ scope'.root = scope'.globalLocation.root := by
  cases e with
  | location target settings =>
    obtain ⟨location, -, rfl⟩ := Option.map_eq_some_iff.mp h
    exact ⟨rfl, hroot⟩
  | line dir args =>
    obtain ⟨server, -, rfl⟩ := Option.map_eq_some_iff.mp h
    exact ⟨rfl, hroot⟩
  | setting dir args =>
    obtain ⟨location, hlocation, rfl⟩ := Option.map_eq_some_iff.mp h
    refine ⟨?_, rfl⟩
    by_cases hdir : dir = .root
    · subst hdir
      match args, hlocation with
      | [value], hlocation =>
        rw [← Option.some.inj hlocation]
        rfl
    · have hkeep : location.root = scope.globalLocation.root :=
        (LocationDirective.sets_of_apply hlocation).others .root (Ne.symm hdir)
      have hnone : (setting dir args).root? = none := by
        unfold root?
        split
        · rename_i heq
          exact absurd (Entry.setting.inj heq).1 hdir
        · rfl
      rw [hnone]
      exact hkeep.trans hroot.symm

/-! ## What a block does -/

variable {entries entries' : List Entry}

/-- **A list of entries.**  It is accepted when its entries are, each on its own, and the error pages
under a root name status codes. -/
theorem isSome_foldlM_apply_iff {scope : ServerScope} (hroot : scope.root = scope.globalLocation.root) :
    (entries.foldlM (fun scope e => Entry.apply e scope) scope).isSome = true ↔
      (∀ e ∈ entries, e.Fits) ∧ ∀ p ∈ resolved scope.root entries, ValidCodes p.2 := by
  induction entries generalizing scope with
  | nil => simp [resolved]
  | cons e entries ih =>
    rw [List.foldlM_cons, resolved, List.forall_mem_cons, List.forall_mem_append, forall_mem_made_iff,
      and_and_and_comm, ← isSome_apply_iff]
    cases happly : e.apply scope with
    | none => simp
    | some scope' =>
      obtain ⟨hnext, hroot'⟩ := root_of_apply happly hroot
      rw [Option.isSome_some, ← hnext]
      simpa using ih hroot'

/-- **A list of entries.**  It makes the error pages under a root, each under its own, in the order in which
they stand. -/
theorem errorPages_of_foldlM {scope scope' : ServerScope}
    (hroot : scope.root = scope.globalLocation.root)
    (h : entries.foldlM (fun scope e => Entry.apply e scope) scope = some scope') :
    scope'.server.errorPages = scope.server.errorPages.insertAll
      ((resolved scope.root entries).flatMap fun p => bindings p.1 p.2) := by
  induction entries generalizing scope with
  | nil => rw [← Option.some.inj h]; rfl
  | cons e entries ih =>
    rw [List.foldlM_cons] at h
    obtain ⟨middle, hfirst, hrest⟩ := Option.bind_eq_some_iff.mp h
    obtain ⟨hnext, hroot'⟩ := root_of_apply hfirst hroot
    rw [ih hroot' hrest, errorPages_of_apply hfirst, ← OrderedMap.insertAll_append, hnext, resolved,
      List.flatMap_append]

/-! ## The error pages after the root -/

theorem afterRoot_cons (e : Entry) (entries : List Entry) :
    afterRoot (e :: entries) = if e.root?.isNone then afterRoot entries else entries := by
  unfold afterRoot
  rw [List.dropWhile_cons]
  split_ifs <;> rfl

theorem root?_eq_some {e : Entry} {root : Path} (h : e.root? = some root) :
    root.isEmpty = false ∧ e.page? = none := by
  unfold root? at h
  split at h
  · rw [← Option.some.inj h]
    exact ⟨LocationDirective.ofString_isEmpty _, rfl⟩
  · cases h

/-- Under a root no error page is skipped, and a root that was set is never taken back. -/
theorem resolved_of_root : ∀ {entries : List Entry} {root : Path}, root.isEmpty = false →
    (resolved root entries).map Prod.snd = pages entries
  | [], _, _ => rfl
  | e :: entries, root, hroot => by
    have hnext : (e.root?.getD root).isEmpty = false := by
      cases he : e.root? with
      | none => exact hroot
      | some root' => exact (root?_eq_some he).1
    show _ = List.filterMap page? (e :: entries)
    rw [resolved, List.map_append, resolved_of_root hnext, made, hroot, List.filterMap_cons]
    cases e.page? <;> rfl

/-- The error pages that are not skipped stand after the first root. -/
theorem map_snd_resolved {root : Path} (hroot : root.isEmpty = true) :
    (resolved root entries).map Prod.snd = pages (afterRoot entries) := by
  induction entries with
  | nil => rfl
  | cons e entries ih =>
    rw [resolved, made, if_pos hroot, List.nil_append, afterRoot_cons]
    cases he : e.root? with
    | none => exact ih
    | some root' => exact resolved_of_root (root?_eq_some he).1

/-- Where the root is set once at most, they were all read under that root. -/
theorem resolved_of_oneRoot : ∀ {entries : List Entry} {root : Path}, (roots entries).length ≤ 1 →
    (root.isEmpty = true ∨ roots entries = []) →
      ∀ p ∈ resolved root entries, p.1 = (roots entries).headD root
  | [], _, _, _ => fun _ h => nomatch h
  | e :: entries, root, hone, hroot => fun p hp => by
    rw [resolved, List.mem_append] at hp
    cases he : e.root? with
    | none =>
      have hroots : roots (e :: entries) = roots entries := List.filterMap_cons_none he
      rw [hroots] at hone hroot ⊢
      rcases hp with hp | hp
      · have hnot : root.isEmpty = false := by
          by_contra hempty
          rw [made, if_pos (by simpa using hempty)] at hp
          cases hp
        rw [hroot.resolve_left (by rw [hnot]; exact Bool.false_ne_true)]
        unfold made at hp
        rw [hnot] at hp
        cases hpage : e.page? with
        | none => rw [hpage] at hp; cases hp
        | some args =>
          rw [hpage] at hp
          rw [List.mem_singleton.mp hp]
          rfl
      · rw [he] at hp
        exact resolved_of_oneRoot hone hroot p hp
    | some root' =>
      have hroots : roots (e :: entries) = root' :: roots entries := List.filterMap_cons_some he
      rw [hroots, List.length_cons] at hone
      have hrest : roots entries = [] := List.length_eq_zero_iff.mp (by omega)
      rw [hroots, List.headD_cons]
      rcases hp with hp | hp
      · rw [made, (root?_eq_some he).2] at hp
        split at hp <;> cases hp
      · rw [he] at hp
        have hfirst := resolved_of_oneRoot (by omega) (Or.inr hrest) p hp
        rwa [hrest] at hfirst

/-! ## Accepted blocks -/

/-- **Accepted blocks.**  A block is accepted when its entries are, each on its own, and the error pages
after the root name status codes. -/
theorem isSome_serverBlock_iff :
    (serverBlock entries).isSome = true ↔
      (∀ e ∈ entries, e.Fits) ∧ ∀ args ∈ pages (afterRoot entries), ValidCodes args := by
  have hpages : (resolved ({} : ServerScope).root entries).map Prod.snd = pages (afterRoot entries) :=
    map_snd_resolved rfl
  rw [serverBlock, Option.isSome_map, serverScope, isSome_foldlM_apply_iff rfl, ← hpages,
    List.forall_mem_map]

/-- The map of an accepted block. -/
theorem errorPages_serverBlock {server : ServerBlock} (h : serverBlock entries = some server) :
    server.errorPages =
      OrderedMap.empty.insertAll ((resolved {} entries).flatMap fun p => bindings p.1 p.2) := by
  obtain ⟨scope, hscope, rfl⟩ := Option.map_eq_some_iff.mp h
  refine Eq.trans ?_ (errorPages_of_foldlM rfl hscope)
  unfold ServerScope.finish ServerBlock.fillLocations
  dsimp only
  split_ifs <;> rfl

theorem pages_afterRoot_sublist (entries : List Entry) :
    (pages (afterRoot entries)).Sublist (pages entries) :=
  ((List.tail_sublist _).trans (List.dropWhile_sublist _)).filterMap _

/-- Two directives that name a code are one directive. -/
theorem DistinctCodes.eq_of_mem (h : DistinctCodes entries) {args args' : List Bytes} {code : Nat}
    (hargs : args ∈ pages entries) (hargs' : args' ∈ pages entries) (hcode : code ∈ codes args)
    (hcode' : code ∈ codes args') : args = args' := by
  have : Std.Symm fun args args' => (codes args).Disjoint (codes args') :=
    ⟨fun _ _ hdisj _ ha hb => hdisj hb ha⟩
  by_contra hne
  exact List.Pairwise.forall h hargs hargs' hne hcode hcode'

/-- **The error pages of an accepted block.**  Its map has the codes of the directives after the root,
each with the file under the root. -/
theorem findErrorPage_eq_some_iff {server : ServerBlock} (h : serverBlock entries = some server)
    (hroot : OneRoot entries) (hcodes : DistinctCodes entries) {code : Nat} {file : Path} :
    server.findErrorPage code = some file ↔
      ∃ args ∈ pages (afterRoot entries),
        code ∈ codes args ∧
          file = Path.ofString (((roots entries).headD {}).str ++ args.getLastD []) := by
  have hroots : ∀ p ∈ resolved {} entries, p.1 = (roots entries).headD {} :=
    resolved_of_oneRoot hroot (Or.inl rfl)
  have hpages : (resolved {} entries).map Prod.snd = pages (afterRoot entries) :=
    map_snd_resolved rfl
  have hmem : ∀ {e : Nat × Path},
      e ∈ (resolved {} entries).flatMap (fun p => bindings p.1 p.2) ↔
        ∃ args ∈ pages (afterRoot entries), e.1 ∈ codes args ∧
          e.2 = Path.ofString (((roots entries).headD {}).str ++ args.getLastD []) := by
    intro e
    rw [List.mem_flatMap, ← hpages]
    constructor
    · rintro ⟨p, hp, he⟩
      obtain ⟨code, hcode, rfl⟩ := List.mem_map.mp he
      exact ⟨p.2, List.mem_map_of_mem hp, hcode, by rw [hroots p hp]⟩
    · rintro ⟨args, hargs, hcode, hfile⟩
      obtain ⟨p, hp, rfl⟩ := List.mem_map.mp hargs
      refine ⟨p, hp, List.mem_map.mpr ⟨e.1, hcode, ?_⟩⟩
      rw [hroots p hp, ← hfile]
  have hagree : ∀ e ∈ (resolved {} entries).flatMap (fun p => bindings p.1 p.2),
      ∀ e' ∈ (resolved {} entries).flatMap (fun p => bindings p.1 p.2), e.1 = e'.1 → e.2 = e'.2 := by
    intro e he e' he' heq
    obtain ⟨args, hargs, hcode, hfile⟩ := hmem.mp he
    obtain ⟨args', hargs', hcode', hfile'⟩ := hmem.mp he'
    have hsub := (pages_afterRoot_sublist entries).subset
    rw [hfile, hfile', hcodes.eq_of_mem (hsub hargs) (hsub hargs') hcode (heq ▸ hcode')]
  rw [ServerBlock.findErrorPage, errorPages_serverBlock h,
    OrderedMap.find?_insertAll_eq_some_iff hagree, hmem]
  simp

/-! ## Permutations -/

section Permutations

variable (hperm : entries'.Perm entries)
include hperm

theorem oneRoot_of_perm (h : OneRoot entries) : OneRoot entries' := by
  rw [OneRoot, roots, (hperm.filterMap _).length_eq]
  exact h

theorem roots_eq_of_perm (h : OneRoot entries) : roots entries' = roots entries := by
  have hroots : (roots entries').Perm (roots entries) := hperm.filterMap _
  match hlist : roots entries, h with
  | [], _ => exact List.perm_nil.mp (hlist ▸ hroots)
  | [_], _ => exact List.perm_singleton.mp (hlist ▸ hroots)
  | _ :: _ :: _, h => rw [OneRoot, hlist] at h; simp at h

theorem distinctCodes_of_perm (h : DistinctCodes entries) : DistinctCodes entries' :=
  h.perm (hperm.filterMap _).symm fun hdisj _ ha hb => hdisj hb ha

end Permutations

/-- The error pages of an accepted block name codes. -/
theorem codes_ne_nil (h : (serverBlock entries).isSome = true) {args : List Bytes}
    (hargs : args ∈ pages (afterRoot entries)) : ∃ code, code ∈ codes args := by
  obtain ⟨hfits, hvalid⟩ := isSome_serverBlock_iff.mp h
  obtain ⟨e, he, hpage⟩ := List.mem_filterMap.mp ((pages_afterRoot_sublist entries).subset hargs)
  have hfit := hfits e he
  obtain rfl : e = .line .errorPage args := by
    unfold page? at hpage
    split at hpage
    · rw [Option.some.inj hpage]
    · cases hpage
  rcases args with _ | ⟨w, _ | ⟨w', args⟩⟩
  · cases hfit
  · cases hfit
  · have hw : w ∈ (w :: w' :: args).dropLast := by simp
    obtain ⟨code, hcode⟩ := Option.isSome_iff_exists.mp (hvalid _ hargs w hw)
    exact ⟨code, List.mem_filterMap.mpr ⟨w, hw, hcode⟩⟩

theorem nodup_pages_afterRoot (h : (serverBlock entries).isSome = true) (hcodes : DistinctCodes entries) :
    (pages (afterRoot entries)).Nodup := by
  refine (hcodes.sublist (pages_afterRoot_sublist entries)).imp_of_mem fun hargs _ hdisj heq => ?_
  subst heq
  obtain ⟨code, hcode⟩ := codes_ne_nil h hargs
  exact hdisj hcode hcode

/-- **Permutations.**  A permutation of an accepted block is accepted with the same error pages when the
same directives stand after the root. -/
theorem errorPages_perm_iff {server : ServerBlock} (h : serverBlock entries = some server)
    (hroot : OneRoot entries) (hcodes : DistinctCodes entries) (hperm : entries'.Perm entries) :
    (∃ server', serverBlock entries' = some server' ∧
        ∀ code, server'.findErrorPage code = server.findErrorPage code) ↔
      (pages (afterRoot entries')).Perm (pages (afterRoot entries)) := by
  have haccepted : (serverBlock entries).isSome = true := by rw [h]; rfl
  have hroot' := oneRoot_of_perm hperm hroot
  have hcodes' := distinctCodes_of_perm hperm hcodes
  constructor
  · rintro ⟨server', h', hsame⟩
    have haccepted' : (serverBlock entries').isSome = true := by rw [h']; rfl
    refine (List.perm_ext_iff_of_nodup (nodup_pages_afterRoot haccepted' hcodes')
      (nodup_pages_afterRoot haccepted hcodes)).mpr fun args => ?_
    have hpages : ∀ {args}, args ∈ pages entries' ↔ args ∈ pages entries :=
      (hperm.filterMap _).mem_iff
    -- a code of the directive is in both maps, and only one directive names it
    constructor
    · intro hargs
      obtain ⟨code, hcode⟩ := codes_ne_nil haccepted' hargs
      have hfind := (findErrorPage_eq_some_iff h' hroot' hcodes').mpr ⟨args, hargs, hcode, rfl⟩
      rw [hsame] at hfind
      obtain ⟨args', hargs', hcode', -⟩ := (findErrorPage_eq_some_iff h hroot hcodes).mp hfind
      have hmem := hpages.mp ((pages_afterRoot_sublist entries').subset hargs)
      rwa [hcodes.eq_of_mem hmem ((pages_afterRoot_sublist entries).subset hargs') hcode hcode']
    · intro hargs
      obtain ⟨code, hcode⟩ := codes_ne_nil haccepted hargs
      have hfind := (findErrorPage_eq_some_iff h hroot hcodes).mpr ⟨args, hargs, hcode, rfl⟩
      rw [← hsame] at hfind
      obtain ⟨args', hargs', hcode', -⟩ := (findErrorPage_eq_some_iff h' hroot' hcodes').mp hfind
      have hmem := hpages.mpr ((pages_afterRoot_sublist entries).subset hargs)
      rwa [hcodes'.eq_of_mem hmem ((pages_afterRoot_sublist entries').subset hargs') hcode hcode']
  · intro hafter
    obtain ⟨hfits, hvalid⟩ := isSome_serverBlock_iff.mp haccepted
    have haccepted' : (serverBlock entries').isSome = true :=
      isSome_serverBlock_iff.mpr ⟨fun e he => hfits e (hperm.mem_iff.mp he),
        fun args hargs => hvalid args (hafter.mem_iff.mp hargs)⟩
    obtain ⟨server', h'⟩ := Option.isSome_iff_exists.mp haccepted'
    refine ⟨server', h', fun code => Option.ext fun file => ?_⟩
    rw [findErrorPage_eq_some_iff h' hroot' hcodes', findErrorPage_eq_some_iff h hroot hcodes,
      roots_eq_of_perm hperm hroot]
    simp only [hafter.mem_iff]

end Entry

/-! ## The order of the directives -/

namespace Block

/-- Wherever the block stands in a file, the parser makes this server of it. -/
def Yields (b : Block ServerEntry.items) (server : ServerBlock) : Prop :=
  ∀ (tokens : List ConfToken) (token : Nat) (rest : List ConfToken) (conf : ConfFile),
    tokens.drop token = b.init ++ b.closing :: rest →
      ∃ conf', serverDirective tokens token conf = .ok (token + b.init.length, conf') ∧
        conf'.blocks = conf.blocks ++ [server]

/-- Wherever the block stands in a file, the parser throws a `ConfigurationException`. -/
def Rejected (b : Block ServerEntry.items) : Prop :=
  ∀ (tokens : List ConfToken) (token : Nat) (rest : List ConfToken) (conf : ConfFile),
    tokens.drop token = b.init ++ b.closing :: rest →
      ∃ e, serverDirective tokens token conf = .error (.exception e)

variable {b b' : Block ServerEntry.items} {server : ServerBlock}

theorem yields_iff : b.Yields server ↔ serverBlock b.texts = some server :=
  ⟨fun h => (serverDirective_iff (List.drop_zero ..)).mp (h (b.init ++ [b.closing]) 0 [] ConfFile.init rfl),
    fun h _ _ _ _ hdrop => (serverDirective_iff hdrop).mpr h⟩

theorem rejected_iff : b.Rejected ↔ serverBlock b.texts = none := by
  have hscope : serverBlock b.texts = none ↔ ∃ e, Item.scope b = .error e := by
    rw [serverBlock, ← scope_toOption, Option.map_eq_none_iff]
    cases Item.scope b <;> simp [Except.toOption]
  rw [hscope]
  constructor
  · intro h
    obtain ⟨e, he⟩ := h (b.init ++ [b.closing]) 0 [] ConfFile.init rfl
    rw [serverDirective_eq b ConfFile.init (List.drop_zero ..)] at he
    cases heq : Item.scope b with
    | error e => exact ⟨e, rfl⟩
    | ok scope =>
      rw [heq] at he
      cases he
  · rintro ⟨e, he⟩ tokens token rest conf hdrop
    exact ⟨e, by rw [serverDirective_eq b conf hdrop, he]; rfl⟩

end Block

open Entry in
/-- **Error pages and the order of the directives.**  A permutation of an accepted block is accepted with
the same error pages just when the same `error_page` directives stand after the root; and a block with a
word that is no status code in `400..599` is rejected just when an `error_page` directive with such a word
stands after the root, or another entry is rejected wherever it stands. -/
theorem errorPages_order (b : Block ServerEntry.items) :
    (∀ (b' : Block ServerEntry.items) (server : ServerBlock), b.Yields server → OneRoot b.texts →
        DistinctCodes b.texts → b'.texts.Perm b.texts →
          ((∃ server', b'.Yields server' ∧
              ∀ code, server'.findErrorPage code = server.findErrorPage code) ↔
            (pages (afterRoot b'.texts)).Perm (pages (afterRoot b.texts)))) ∧
      ((∃ args ∈ pages b.texts, ¬ ValidCodes args) →
        (b.Rejected ↔
          (∃ args ∈ pages (afterRoot b.texts), ¬ ValidCodes args) ∨ ∃ e ∈ b.texts, ¬ e.Fits)) := by
  refine ⟨fun b' server h hroot hcodes hperm => ?_, fun _ => ?_⟩
  · rw [← errorPages_perm_iff (Block.yields_iff.mp h) hroot hcodes hperm]
    simp only [Block.yields_iff]
  · have hnot : b.Rejected ↔ ¬ (serverBlock b.texts).isSome = true := by
      rw [Block.rejected_iff, Option.not_isSome_iff_eq_none]
    rw [hnot, isSome_serverBlock_iff, not_and_or, or_comm]
    simp

/-- A word or a `;` or a brace of a file of one line. -/
def word (str : String) : ConfToken := ⟨bytes str, 1⟩

set_option maxRecDepth 10000 in
/-- `root /r;` -/
def rootLine : ServerEntry :=
  .setting ⟨.root, word "root", [word "/r"], word ";", rfl, by unfold Words; decide, by decide⟩

set_option maxRecDepth 10000 in
/-- `listen 80;` -/
def listenLine : ServerEntry :=
  .line ⟨.listen, word "listen", [word "80"], word ";", rfl, by unfold Words; decide, by decide⟩

set_option maxRecDepth 10000 in
/-- `error_page 404 /e;` -/
def pageLine : ServerEntry :=
  .line ⟨.errorPage, word "error_page", [word "404", word "/e"], word ";", rfl, by unfold Words; decide, by decide⟩

set_option maxRecDepth 10000 in
/-- `error_page 4x4 /e;` -/
def wrongPageLine : ServerEntry :=
  .line ⟨.errorPage, word "error_page", [word "4x4", word "/e"], word ";", rfl, by unfold Words; decide, by decide⟩

set_option maxRecDepth 10000 in
/-- A server of these entries. -/
def serverOf (entries : List ServerEntry) : Block ServerEntry.items :=
  ⟨word "server", word "\x7b", entries, word "\x7d", by decide, by decide⟩

set_option maxRecDepth 10000 in
theorem errorPages_order_listen :
    (∃ server server', (serverOf [listenLine, rootLine, pageLine]).Yields server ∧
        (serverOf [rootLine, listenLine, pageLine]).Yields server' ∧
          ∀ code, server'.findErrorPage code = server.findErrorPage code) ∧
      ¬ (serverOf [wrongPageLine, rootLine]).Rejected := by
  constructor
  · obtain ⟨server, h⟩ := Option.isSome_iff_exists.mp (by decide +kernel :
      (serverBlock (serverOf [listenLine, rootLine, pageLine]).texts).isSome = true)
    have hroot : Entry.OneRoot (serverOf [listenLine, rootLine, pageLine]).texts := by
      unfold Entry.OneRoot
      decide
    have hcodes : Entry.DistinctCodes (serverOf [listenLine, rootLine, pageLine]).texts :=
      List.pairwise_singleton _ _
    have hperm : (serverOf [rootLine, listenLine, pageLine]).texts.Perm
        (serverOf [listenLine, rootLine, pageLine]).texts := List.Perm.swap _ _ _
    obtain ⟨server', h', hsame⟩ :=
      ((errorPages_order _).1 _ server (Block.yields_iff.mpr h) hroot hcodes hperm).mpr (List.Perm.refl _)
    exact ⟨server, server', Block.yields_iff.mpr h, h', hsame⟩
  · have hwrong : ∃ args ∈ Entry.pages (serverOf [wrongPageLine, rootLine]).texts,
        ¬ Entry.ValidCodes args :=
      ⟨_, List.mem_singleton_self _, by unfold Entry.ValidCodes; decide +kernel⟩
    rw [(errorPages_order _).2 hwrong]
    unfold Entry.Fits Entry.ValidCodes
    decide +kernel

set_option maxRecDepth 10000 in
/-- A server whose root comes after its error page loses the page, and one whose root comes after an
error page of a wrong code is accepted. -/
theorem errorPages_swapped :
    (∃ (b b' : Block ServerEntry.items) (server : ServerBlock), b.Yields server ∧
        Entry.OneRoot b.texts ∧ Entry.DistinctCodes b.texts ∧ b'.texts.Perm b.texts ∧
          ¬ ∃ server', b'.Yields server' ∧
            ∀ code, server'.findErrorPage code = server.findErrorPage code) ∧
      ∃ b : Block ServerEntry.items,
        (∃ args ∈ Entry.pages b.texts, ¬ Entry.ValidCodes args) ∧ ¬ b.Rejected := by
  constructor
  · obtain ⟨server, h⟩ := Option.isSome_iff_exists.mp
      (by decide +kernel : (serverBlock (serverOf [rootLine, pageLine]).texts).isSome = true)
    refine ⟨serverOf [rootLine, pageLine], serverOf [pageLine, rootLine], server,
      Block.yields_iff.mpr h, by unfold Entry.OneRoot; decide, List.pairwise_singleton _ _,
      List.Perm.swap _ _ _, ?_⟩
    rintro ⟨server', h', hsame⟩
    have hfound : ((serverBlock (serverOf [rootLine, pageLine]).texts).bind fun server =>
        server.findErrorPage 404).isSome = true := by decide +kernel
    have hlost : ((serverBlock (serverOf [pageLine, rootLine]).texts).bind fun server =>
        server.findErrorPage 404) = none := by decide +kernel
    rw [h, Option.bind_some, ← hsame] at hfound
    rw [Block.yields_iff.mp h', Option.bind_some] at hlost
    rw [hlost] at hfound
    cases hfound
  · refine ⟨serverOf [wrongPageLine, rootLine],
      ⟨_, List.mem_singleton_self _, by unfold Entry.ValidCodes; decide +kernel⟩, ?_⟩
    rw [Block.rejected_iff]
    decide +kernel

end Webserv
