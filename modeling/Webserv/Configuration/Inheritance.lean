import Webserv.Configuration.Settings
import Mathlib.Data.List.Perm.Basic

/-!
# Inheritance of the settings

The settings of a location are the ones given in it, or else the ones given at server level, or else the
defaults.  The parser keeps "not set" in the fields themselves: `-1`, `0`, the empty path, list or map;
`LocationBlock::fill` looks for these after the whole block was read, in an accumulator that holds two of
the defaults already.

* `Value`, `value`, `given`: a setting of a location and what lines give it.
* `inherited`: what a setting should be.
* `sets_of_apply`, `setsAll_of_foldlM`: what one line and what a list of lines does to the settings.
* `foldlM_apply_eq`: the lines of a block and its locations do not meet before `fill`.
* `locations_inherit`: the locations of every accepted block.

## Why a setting is a function of its directive

A location has nine settings, one for each directive, of six types.  Most of what is to be said is the same
for all: a line changes one setting and leaves the others, `fill` keeps a setting that was made and takes
any other from the server.  `Value` gives each directive its type and `value` its field, so the statements
are about an arbitrary directive, and a proof that needs the nine cases has them in one place.

## Why "not set" is delicate

A value that stands for "not set" must be one that no line can make.  For a path, an index list or a map of
CGIs it is, since every line adds something.  The status of a redirection that was not made is accepted by
no directive.  A body limit is the exception: -1 cannot be written, but a number of 2^31 or more can, and it
is narrowed to an `int32_t`, whose -1 is one of the results.  The statement therefore speaks of sizes below
2^31 (`IsSmall`).

## Why locations can move

The settings at server level count for a location that stands before them, because `fill` runs at the end of
the block.  `foldlM_apply_eq` states this for all entries: the ones that are no locations lead to a scope of
their own, and the locations are added to it.
-/

namespace Webserv

open ConfFile TokenCursor

/-! ## The settings of a location -/

/-- One setting: the directive that makes it and the words of the line. -/
abbrev Setting := LocationDirective × List Bytes

namespace LocationDirective

/-- The type of a setting. -/
def Value : LocationDirective → Type
  | root | clientBodyUploadPath | clientBodyTempPath => Path
  | allow => Nat
  | clientMaxBodySize | autoindex => Int
  | redirect => Nat × Bytes
  | index => List Bytes
  | cgi => OrderedMap Bytes Path

/-- A setting of a location: the field that the directive sets. -/
def value : (dir : LocationDirective) → LocationBlock → dir.Value
  | root => LocationBlock.root
  | allow => LocationBlock.allowed
  | clientMaxBodySize => LocationBlock.maxBodySize
  | autoindex => LocationBlock.dirListing
  | redirect => LocationBlock.redirection
  | index => LocationBlock.indexes
  | cgi => LocationBlock.gcis
  | clientBodyUploadPath => LocationBlock.clientBodyUploadPath
  | clientBodyTempPath => LocationBlock.clientBodyTempPath

/-- The bit of a method. -/
def methodBit (method : Bytes) : Nat :=
  1 <<< ((Method.methods.findIdx? fun m => m.1 = method).getD 0)

/-- What one line makes of a setting.  Methods, indexes and CGIs add up; the others are replaced. -/
def assign : (dir : LocationDirective) → List Bytes → dir.Value → dir.Value
  | root, args, _ => Path.ofString (args.headD [] ++ [slash])
  | allow, args, (allowed : Nat) => args.foldl (fun (allowed : Nat) m => allowed ||| methodBit m) allowed
  | clientMaxBodySize, args, _ => (stoi 0 uint32Max (args.headD [])).getD 0
  | autoindex, args, _ => if args = [LocationBlock.dirListingOn] then (1 : Int) else (0 : Int)
  | redirect, args, _ => (((stoi 0 uint16Max (args.headD [])).getD 0).toNat, args.getLastD [])
  | index, args, (indexes : List Bytes) => indexes ++ args
  | cgi, args, (gcis : OrderedMap Bytes Path) =>
    args.dropLast.foldl (fun gcis ext => gcis.insert ext (Path.ofString (args.getLastD []))) gcis
  | clientBodyUploadPath, args, _ => Path.ofString (args.headD [] ++ [slash])
  | clientBodyTempPath, args, _ => Path.ofString (args.headD [] ++ [slash])

/-- A setting that no line has made: the value in a new location. -/
def unset : (dir : LocationDirective) → dir.Value := fun dir => dir.value {}

/-- What lines make of a setting that starts unset.  A later line replaces an earlier one, or adds to it. -/
def given (dir : LocationDirective) (lines : List (List Bytes)) : dir.Value :=
  lines.foldl (fun v args => dir.assign args v) dir.unset

/-- The built-in default. -/
def fallback : (dir : LocationDirective) → dir.Value
  | root | clientBodyUploadPath | clientBodyTempPath => ({} : Path)
  | allow => (0 : Nat)
  | clientMaxBodySize => (1048576 : Int)
  | autoindex => (0 : Int)
  | redirect => ((0, []) : Nat × Bytes)
  | index => [bytes "index.html"]
  | cgi => (OrderedMap.empty : OrderedMap Bytes Path)

/-- The lines of a directive, as their words, in order. -/
def linesOf (dir : LocationDirective) (settings : List Setting) : List (List Bytes) :=
  (settings.filter fun s => s.1 = dir).map Prod.snd

/-- **What a setting should be.**  The one given in the location, or else at server level, or else the
default. -/
def inherited (dir : LocationDirective) (own server : List Setting) : dir.Value :=
  if dir.linesOf own ≠ [] then dir.given (dir.linesOf own)
  else if dir.linesOf server ≠ [] then dir.given (dir.linesOf server)
  else dir.fallback

/-- What `LocationBlock::fill` takes for a setting that was made: it has no flag for that and compares with
the unset value. -/
def IsSet : (dir : LocationDirective) → dir.Value → Prop
  | root, v => Path.isEmpty v = false
  | allow, v => v ≠ (0 : Nat)
  | clientMaxBodySize, v => v ≠ (-1 : Int)
  | autoindex, v => v ≠ (-1 : Int)
  | redirect, v => Prod.fst (α := Nat) (β := Bytes) v ≠ 0
  | index, v => v ≠ ([] : List Bytes)
  | cgi, v => OrderedMap.entries (κ := Bytes) (ν := Path) v ≠ []
  | clientBodyUploadPath, v => Path.isEmpty v = false
  | clientBodyTempPath, v => Path.isEmpty v = false

/-- A body size below `2^31`; the others are not restricted. -/
def IsSmall (dir : LocationDirective) (args : List Bytes) : Prop :=
  dir = clientMaxBodySize → ∀ w ∈ args, ∀ size, stoi 0 uint32Max w = some size → size < 2 ^ 31

/-! ## What one line does -/

theorem ofString_isEmpty (w : Bytes) : (Path.ofString (w ++ [slash])).isEmpty = false := by
  have hlast : (squeeze (w ++ [slash])).getLast? = some slash := by
    rw [getLast?_squeeze, List.getLast?_concat]
  rw [Path.isEmpty, Path.ofString_str]
  cases hs : squeeze (w ++ [slash]) with
  | nil => rw [hs] at hlast; cases hlast
  | cons a t => rfl

theorem stoi_bounds {min max : Int} {str : Bytes} {v : Int} (h : stoi min max str = some v) :
    min ≤ v ∧ v ≤ max := by
  unfold stoi at h
  dsimp only at h
  split_ifs at h with hbad
  obtain rfl := Option.some.inj h
  omega

/-- The loop of `_allowDirective` sets the bits of the methods. -/
theorem foldlM_allowMethod : ∀ {methods : List Bytes} {location location' : LocationBlock},
    methods.foldlM LocationBlock.allowMethod location = some location' →
      location' = { location with
        allowed := methods.foldl (fun allowed m => allowed ||| methodBit m) location.allowed }
  | [], location, location', h => (Option.some.inj h).symm
  | method :: methods, location, location', h => by
    rw [List.foldlM_cons] at h
    unfold LocationBlock.allowMethod at h
    cases hindex : Method.methods.findIdx? fun m => m.1 = method with
    | none =>
      rw [hindex] at h
      cases h
    | some i =>
      rw [hindex] at h
      have hrest := foldlM_allowMethod h
      rw [hrest, List.foldl_cons, methodBit, hindex]
      rfl

/-- Some bit is set. -/
theorem foldl_or_ne_zero {methods : List Bytes} (h : methods ≠ []) (allowed : Nat) :
    methods.foldl (fun allowed m => allowed ||| methodBit m) allowed ≠ 0 := by
  have hbit : ∀ m, methodBit m ≠ 0 := fun m => by
    rw [methodBit, Nat.shiftLeft_eq, Nat.one_mul]
    exact (Nat.two_pow_pos _).ne'
  have hkeep : ∀ (methods : List Bytes) {allowed : Nat}, allowed ≠ 0 →
      methods.foldl (fun allowed m => allowed ||| methodBit m) allowed ≠ 0 := by
    intro methods
    induction methods with
    | nil => exact fun h => h
    | cons m methods ih => exact fun h => ih fun hzero => h (Nat.or_eq_zero_iff.mp hzero).1
  obtain ⟨m, methods, rfl⟩ := List.exists_cons_of_ne_nil h
  exact hkeep methods fun hzero => hbit m (Nat.or_eq_zero_iff.mp hzero).2

theorem entries_foldl_insert_ne_nil {exts : List Bytes} (h : exts ≠ []) (binary : Path)
    (gcis : OrderedMap Bytes Path) :
    (exts.foldl (fun gcis ext => gcis.insert ext binary) gcis).entries ≠ [] := by
  have hkeep : ∀ (exts : List Bytes) {gcis : OrderedMap Bytes Path}, gcis.entries ≠ [] →
      (exts.foldl (fun gcis ext => gcis.insert ext binary) gcis).entries ≠ [] := by
    intro exts
    induction exts with
    | nil => exact fun h => h
    | cons ext exts ih => exact fun _ => ih (OrderedMap.entries_insert_ne_nil _ _ _)
  obtain ⟨ext, exts, rfl⟩ := List.exists_cons_of_ne_nil h
  exact hkeep exts (OrderedMap.entries_insert_ne_nil _ _ _)

theorem foldl_addIndex : ∀ (indexes : List Bytes) (location : LocationBlock),
    indexes.foldl LocationBlock.addIndex location =
      { location with indexes := location.indexes ++ indexes }
  | [], location => by rw [List.append_nil]; rfl
  | name :: names, location => by
    rw [List.foldl_cons, foldl_addIndex names, LocationBlock.addIndex]
    dsimp only
    rw [List.append_assoc]
    rfl

theorem foldl_addCGI (binary : Bytes) : ∀ (exts : List Bytes) (location : LocationBlock),
    exts.foldl (fun location ext => location.addCGI ext binary) location =
      { location with
        gcis := exts.foldl (fun gcis ext => gcis.insert ext (Path.ofString binary)) location.gcis }
  | [], _ => rfl
  | ext :: exts, location => by
    rw [List.foldl_cons, foldl_addCGI binary exts, LocationBlock.addCGI]
    rfl

/-- The field of a location that a directive sets, and nothing else. -/
structure Sets (dir : LocationDirective) (args : List Bytes) (location location' : LocationBlock) :
    Prop where
  path : location'.path = location.path
  others : ∀ dir', dir' ≠ dir → dir'.value location' = dir'.value location
  value : dir.IsSmall args → dir.value location' = dir.assign args (dir.value location)
  isSet : dir.IsSmall args → dir.IsSet (dir.value location')

section Lines

variable {location location' : LocationBlock} {w code body : Bytes}

theorem sets_maxBodySize (h : clientMaxBodySize.apply [w] location = some location') :
    Sets clientMaxBodySize [w] location location' := by
  obtain ⟨size, hsize, rfl⟩ := Option.map_eq_some_iff.mp h
  have hvalue : IsSmall clientMaxBodySize [w] → toInt32 size = size := fun hsmall =>
    toInt32_of_range (by have := (stoi_bounds hsize).1; omega)
      (by have := hsmall rfl w (List.mem_singleton_self w) size hsize; unfold int32Max; omega)
  refine ⟨rfl, fun dir' hne => ?_, fun hsmall => ?_, fun hsmall => ?_⟩
  · cases dir' <;> first | rfl | exact absurd rfl hne
  · show toInt32 size = (stoi 0 uint32Max w).getD 0
    rw [hvalue hsmall, hsize]
    rfl
  · show toInt32 size ≠ -1
    rw [hvalue hsmall]
    have := (stoi_bounds hsize).1
    omega

theorem sets_dirListing (h : location.setDirListing w = some location') :
    Sets autoindex [w] location location' := by
  unfold LocationBlock.setDirListing at h
  split_ifs at h with hon hoff
  · obtain rfl := Option.some.inj h
    refine ⟨rfl, fun dir' hne => ?_, fun _ => ?_, fun _ => (by decide : (1 : Int) ≠ -1)⟩
    · cases dir' <;> first | rfl | exact absurd rfl hne
    · exact (if_pos (by rw [hon])).symm
  · obtain rfl := Option.some.inj h
    refine ⟨rfl, fun dir' hne => ?_, fun _ => ?_, fun _ => (by decide : (0 : Int) ≠ -1)⟩
    · cases dir' <;> first | rfl | exact absurd rfl hne
    · exact (if_neg fun heq => hon (List.singleton_inj.mp heq)).symm

theorem sets_redirect (h : redirect.apply [code, body] location = some location') :
    Sets redirect [code, body] location location' := by
  obtain ⟨status, hstatus, hset⟩ := Option.bind_eq_some_iff.mp h
  unfold LocationBlock.setRedirect at hset
  split_ifs at hset with hmem
  obtain rfl := Option.some.inj hset
  refine ⟨rfl, fun dir' hne => ?_, fun _ => ?_, fun _ => ?_⟩
  · cases dir' <;> first | rfl | exact absurd rfl hne
  · show (status.toNat, body) = (((stoi 0 uint16Max code).getD 0).toNat, body)
    rw [hstatus]
    rfl
  · show status.toNat ≠ 0
    intro hzero
    rw [hzero] at hmem
    exact absurd hmem (by decide)

end Lines

/-- **One line.**  A line that is accepted sets its setting and no other, to the value that `assign` says. -/
theorem sets_of_apply {dir : LocationDirective} {args : List Bytes}
    {location location' : LocationBlock} (h : dir.apply args location = some location') :
    Sets dir args location location' := by
  cases dir with
  | root | clientBodyUploadPath | clientBodyTempPath =>
    rcases args with _ | ⟨w, _ | _⟩
    · cases h
    · obtain rfl := Option.some.inj h
      refine ⟨rfl, fun dir' hne => ?_, fun _ => rfl, fun _ => ofString_isEmpty w⟩
      cases dir' <;> first | rfl | exact absurd rfl hne
    · cases h
  | allow =>
    cases args with
    | nil => cases h
    | cons method methods =>
      obtain rfl := foldlM_allowMethod h
      refine ⟨rfl, fun dir' hne => ?_, fun _ => rfl, fun _ => ?_⟩
      · cases dir' <;> first | rfl | exact absurd rfl hne
      · exact foldl_or_ne_zero (List.cons_ne_nil method methods) location.allowed
  | clientMaxBodySize =>
    rcases args with _ | ⟨w, _ | _⟩
    · cases h
    · exact sets_maxBodySize h
    · cases h
  | autoindex =>
    rcases args with _ | ⟨w, _ | _⟩
    · cases h
    · exact sets_dirListing h
    · cases h
  | redirect =>
    rcases args with _ | ⟨code, _ | ⟨body, _ | _⟩⟩
    · cases h
    · cases h
    · exact sets_redirect h
    · cases h
  | index =>
    cases args with
    | nil => cases h
    | cons name names =>
      obtain rfl := (foldl_addIndex (name :: names) location).symm.trans (Option.some.inj h)
      refine ⟨rfl, fun dir' hne => ?_, fun _ => rfl, fun _ => ?_⟩
      · cases dir' <;> first | rfl | exact absurd rfl hne
      · exact List.append_ne_nil_of_right_ne_nil _ (List.cons_ne_nil name names)
  | cgi =>
    rcases args with _ | ⟨ext, _ | ⟨binary, args⟩⟩
    · cases h
    · cases h
    · have hlocation := (foldl_addCGI _ _ _).symm.trans (Option.some.inj h)
      obtain rfl := hlocation
      refine ⟨rfl, fun dir' hne => ?_, fun _ => rfl, fun _ => ?_⟩
      · cases dir' <;> first | rfl | exact absurd rfl hne
      · exact entries_foldl_insert_ne_nil (List.cons_ne_nil ext (binary :: args).dropLast) _ _

/-- A line of small numbers keeps what was set before: it may change a setting, and does not make it unset
again. -/
theorem Sets.keeps {dir dir' : LocationDirective} {args : List Bytes}
    {location location' : LocationBlock} (h : Sets dir args location location')
    (hsmall : dir.IsSmall args) (hset : dir'.IsSet (dir'.value location)) :
    dir'.IsSet (dir'.value location') := by
  by_cases heq : dir' = dir
  · subst heq
    exact h.isSet hsmall
  · rw [h.others dir' heq]
    exact hset

/-! ## What a list of lines does -/

/-- The settings of a location after a list of lines: each is what the lines of its own directive make of
it. -/
structure SetsAll (settings : List Setting) (location location' : LocationBlock) : Prop where
  path : location'.path = location.path
  value : ∀ dir : LocationDirective, dir.value location' =
    (dir.linesOf settings).foldl (fun v args => dir.assign args v) (dir.value location)
  isSet : ∀ dir : LocationDirective,
    dir.linesOf settings ≠ [] ∨ dir.IsSet (dir.value location) → dir.IsSet (dir.value location')

theorem linesOf_cons_self (dir : LocationDirective) (args : List Bytes) (settings : List Setting) :
    dir.linesOf ((dir, args) :: settings) = args :: dir.linesOf settings := by
  simp [linesOf]

theorem linesOf_cons_of_ne {dir dir' : LocationDirective} (h : dir' ≠ dir) (args : List Bytes)
    (settings : List Setting) : dir'.linesOf ((dir, args) :: settings) = dir'.linesOf settings := by
  simp [linesOf, h.symm]

/-- **A list of lines.**  Every setting is what its own lines make of it; the lines of other directives do
not touch it. -/
theorem setsAll_of_foldlM : ∀ {settings : List Setting} {location location' : LocationBlock},
    (∀ s ∈ settings, s.1.IsSmall s.2) →
      settings.foldlM (fun location s => s.1.apply s.2 location) location = some location' →
        SetsAll settings location location'
  | [], location, location', _, h => by
    obtain rfl := Option.some.inj h
    exact ⟨rfl, fun _ => rfl, fun dir h => h.resolve_left fun hne => hne rfl⟩
  | (dir, args) :: settings, location, location', hsmall, h => by
    rw [List.foldlM_cons] at h
    obtain ⟨middle, hfirst, hrest⟩ := Option.bind_eq_some_iff.mp h
    have hargs : dir.IsSmall args := hsmall _ List.mem_cons_self
    have hsets := sets_of_apply hfirst
    have ih := setsAll_of_foldlM (fun s hs => hsmall s (List.mem_cons_of_mem _ hs)) hrest
    refine ⟨ih.path.trans hsets.path, fun dir' => ?_, fun dir' h => ?_⟩
    · rw [ih.value]
      by_cases heq : dir' = dir
      · subst heq
        rw [linesOf_cons_self, List.foldl_cons, hsets.value hargs]
      · rw [linesOf_cons_of_ne heq, hsets.others dir' heq]
    · by_cases heq : dir' = dir
      · subst heq
        exact ih.isSet dir' (Or.inr (hsets.isSet hargs))
      · rw [linesOf_cons_of_ne heq] at h
        exact ih.isSet dir' (h.imp_right fun hset => hsets.keeps hargs hset)

/-! ## What the end of the block does -/

/-- An index list is never left empty: `fill` ends with the default for it, and for no other setting. -/
def orDefault : (dir : LocationDirective) → dir.Value → dir.Value
  | index, (v : List Bytes) => if v = [] then [LocationBlock.defaultIndex] else v
  | root, v | allow, v | clientMaxBodySize, v | autoindex, v | redirect, v | cgi, v
  | clientBodyUploadPath, v | clientBodyTempPath, v => v

/-- `LocationBlock::fill` keeps what is set, for each of the nine settings: what a location says itself
wins. -/
theorem value_fill_of_isSet {dir : LocationDirective} {location : LocationBlock}
    (h : dir.IsSet (dir.value location)) (other : LocationBlock) :
    dir.value (location.fill other) = dir.value location := by
  cases dir with
  | root | clientBodyUploadPath | clientBodyTempPath => exact if_neg (ne_true_of_eq_false h)
  | allow | clientMaxBodySize | autoindex | redirect | index | cgi => exact if_neg h

/-- `LocationBlock::fill` takes the rest from the server, and a default where the server has nothing set
either. -/
theorem value_fill_of_not_isSet {dir : LocationDirective} {location : LocationBlock}
    (h : ¬ dir.IsSet (dir.value location)) (other : LocationBlock) :
    dir.value (location.fill other) = dir.orDefault (dir.value other) := by
  cases dir with
  | root | clientBodyUploadPath | clientBodyTempPath => exact if_pos (eq_true_of_ne_false h)
  | allow | clientMaxBodySize | autoindex | redirect | cgi => exact if_pos (not_not.mp h)
  | index =>
    refine (if_pos (not_not.mp h)).trans ?_
    show (if other.indexes ≠ [] then other.indexes else _) =
      if other.indexes = [] then _ else other.indexes
    rw [ite_not]

theorem not_isSet_unset (dir : LocationDirective) : ¬ dir.IsSet dir.unset := by
  cases dir with
  | root | clientBodyUploadPath | clientBodyTempPath => exact fun h => nomatch h
  | allow | clientMaxBodySize | autoindex | redirect | index | cgi => exact fun h => h rfl

/-- What is set is not replaced by a default. -/
theorem orDefault_of_isSet {dir : LocationDirective} {v : dir.Value} (h : dir.IsSet v) :
    dir.orDefault v = v := by
  cases dir with
  | index => exact if_neg h
  | root | allow | clientMaxBodySize | autoindex | redirect | cgi | clientBodyUploadPath
  | clientBodyTempPath => rfl

/-- Where nothing was given at server level, the default remains. -/
theorem orDefault_setDefaults (dir : LocationDirective) :
    dir.orDefault (dir.value ({} : LocationBlock).setDefaults) = dir.fallback := by
  cases dir <;> rfl

/-- The first line of a setting does not depend on the defaults of the server. -/
theorem assign_setDefaults (dir : LocationDirective) (args : List Bytes) :
    dir.assign args (dir.value ({} : LocationBlock).setDefaults) = dir.assign args dir.unset := by
  cases dir <;> rfl

theorem given_of_ne_nil {dir : LocationDirective} {lines : List (List Bytes)} (h : lines ≠ []) :
    lines.foldl (fun v args => dir.assign args v) (dir.value ({} : LocationBlock).setDefaults) =
      dir.given lines := by
  obtain ⟨args, lines, rfl⟩ := List.exists_cons_of_ne_nil h
  rw [given, List.foldl_cons, List.foldl_cons, assign_setDefaults]

/-- The setting of a new location is not set. -/
theorem value_new (dir : LocationDirective) (path : Path) :
    dir.value { path := path } = dir.unset := by
  cases dir <;> rfl

/-- **Inheritance.**  The settings of a filled location are those that were given in it, else those of the
server, else the defaults. -/
theorem value_fill {own server : List Setting} {path : Path} {location global : LocationBlock}
    (hown : SetsAll own { path := path } location)
    (hserver : SetsAll server ({} : LocationBlock).setDefaults global) (dir : LocationDirective) :
    dir.value (location.fill global) = dir.inherited own server := by
  unfold inherited
  by_cases hlines : dir.linesOf own ≠ []
  · rw [if_pos hlines, value_fill_of_isSet (hown.isSet dir (Or.inl hlines)), hown.value, value_new]
    rfl
  · have hvalue : dir.value location = dir.unset := by
      rw [hown.value, not_not.mp hlines, List.foldl_nil, value_new]
    have hnot : ¬ dir.IsSet (dir.value location) := by
      rw [hvalue]
      exact not_isSet_unset dir
    rw [if_neg hlines, value_fill_of_not_isSet hnot]
    by_cases hglobal : dir.linesOf server ≠ []
    · rw [if_pos hglobal, orDefault_of_isSet (hserver.isSet dir (Or.inl hglobal)), hserver.value,
        given_of_ne_nil hglobal]
    · rw [if_neg hglobal, hserver.value, not_not.mp hglobal, List.foldl_nil, orDefault_setDefaults]

end LocationDirective

/-! ## The entries that are locations, and the others -/

namespace Entry

def isLocation : Entry → Bool
  | location .. => true
  | _ => false

/-- The locations of a block: the target and the settings of each. -/
def locations (entries : List Entry) : List (Bytes × List Setting) :=
  entries.filterMap fun
    | location target settings => some (target, settings)
    | _ => none

/-- The settings at server level, in order, which count for all locations of the block. -/
def settings (entries : List Entry) : List Setting :=
  entries.filterMap fun
    | setting dir args => some (dir, args)
    | _ => none

/-- The entries other than locations, which are read as if the locations were not there. -/
def others (entries : List Entry) : List Entry := entries.filter fun e => !e.isLocation

section Lists

variable (entries entries' : List Entry) (target : Bytes) (own : List Setting)

@[simp] theorem others_append : others (entries ++ entries') = others entries ++ others entries' :=
  List.filter_append ..

@[simp] theorem locations_append :
    locations (entries ++ entries') = locations entries ++ locations entries' :=
  List.filterMap_append ..

@[simp] theorem others_location_cons : others (location target own :: entries) = others entries :=
  List.filter_cons_of_neg (by simp [isLocation])

@[simp] theorem locations_location_cons :
    locations (location target own :: entries) = (target, own) :: locations entries := rfl

end Lists

/-- The same entries, the locations at other places and in another order among each other; the rest stays in
order. -/
structure MovesLocations (entries' entries : List Entry) : Prop where
  others : others entries' = others entries
  locations : (locations entries').Perm (locations entries)

/-- Moving one location to another place. -/
theorem MovesLocations.of_move {before after before' after' : List Entry} (target : Bytes)
    (own : List Setting) (h : before' ++ after' = before ++ after) :
    MovesLocations (before' ++ location target own :: after')
      (before ++ location target own :: after) := by
  have hothers := congrArg Entry.others h
  have hlocations := congrArg Entry.locations h
  rw [others_append, others_append] at hothers
  rw [locations_append, locations_append] at hlocations
  constructor
  · simpa using hothers
  · rw [locations_append, locations_append, locations_location_cons, locations_location_cons]
    refine List.perm_middle.trans (List.Perm.trans ?_ List.perm_middle.symm)
    rw [hlocations]

end Entry

namespace ConfFile.ServerScope

/-- Locations at the end of the list. -/
def addLocations (scope : ServerScope) (locations : List LocationBlock) : ServerScope :=
  { scope with server :=
    { scope.server with locations := scope.server.locations ++ locations } }

@[simp] theorem addLocations_nil (scope : ServerScope) : scope.addLocations [] = scope := by
  simp [addLocations]

theorem addLocations_append (scope : ServerScope) (l m : List LocationBlock) :
    (scope.addLocations l).addLocations m = scope.addLocations (l ++ m) := by
  simp [addLocations]

end ConfFile.ServerScope

theorem foldlM_comm {σ ι : Type} {f : σ → ι → Option σ} {g : σ → σ} :
    ∀ {l : List ι}, (∀ i ∈ l, ∀ s, f (g s) i = (f s i).map g) →
      ∀ s, l.foldlM f (g s) = (l.foldlM f s).map g
  | [], _, _ => rfl
  | i :: l, h, s => by
    rw [List.foldlM_cons, List.foldlM_cons, h i List.mem_cons_self]
    cases f s i with
    | none => rfl
    | some s' => exact foldlM_comm (fun j hj => h j (List.mem_cons_of_mem i hj)) s'

theorem foldl_addName (names : List Bytes) (server : ServerBlock) :
    names.foldl ServerBlock.addName server = { server with names := server.names ++ names } := by
  induction names generalizing server with
  | nil => simp
  | cons name names ih => simp [ih, ServerBlock.addName]

/-- A line of a server does not see its locations. -/
theorem ServerLine.apply_locations (root : Path) (dir : ServerLine) (args : List Bytes)
    (server : ServerBlock) (l : List LocationBlock) :
    dir.apply root args { server with locations := server.locations ++ l } =
      (dir.apply root args server).map fun server =>
        { server with locations := server.locations ++ l } := by
  cases dir with
  | listen =>
    match args with
    | [] => rfl
    | [value] =>
      show (listenHost value).map _ = ((listenHost value).map _).map _
      cases listenHost value <;> rfl
    | _ :: _ :: _ => rfl
  | serverName =>
    match args with
    | [] => rfl
    | name :: names =>
      show some ((name :: names).foldl _ _) = some _
      rw [foldl_addName, foldl_addName]
  | errorPage =>
    match args with
    | [] => rfl
    | [_] => rfl
    | code :: file :: args =>
      unfold apply
      dsimp only
      split_ifs with hroot
      · rfl
      · exact foldlM_comm (g := fun server : ServerBlock =>
          { server with locations := server.locations ++ l })
          (fun code _ server => by cases errorStatus code <;> rfl) server

theorem Entry.apply_addLocations {e : Entry} (h : e.isLocation = false) (scope : ServerScope)
    (l : List LocationBlock) :
    e.apply (scope.addLocations l) = (e.apply scope).map fun scope => scope.addLocations l := by
  cases e with
  | location => cases h
  | line dir args =>
    show (dir.apply scope.root args
      { scope.server with locations := scope.server.locations ++ l }).map _ = _
    rw [dir.apply_locations]
    show _ = ((dir.apply scope.root args scope.server).map _).map _
    cases dir.apply scope.root args scope.server <;> rfl
  | setting dir args =>
    show (dir.apply args scope.globalLocation).map _ =
      ((dir.apply args scope.globalLocation).map _).map _
    cases dir.apply args scope.globalLocation <;> rfl

/-- The locations that a list describes. -/
def locationBlocks (locations : List (Bytes × List Setting)) : Option (List LocationBlock) :=
  locations.mapM fun l => locationBlock l.1 l.2

theorem Entry.foldlM_others_addLocations (entries : List Entry) (scope : ServerScope)
    (l : List LocationBlock) :
    (Entry.others entries).foldlM (fun scope e => Entry.apply e scope) (scope.addLocations l) =
      ((Entry.others entries).foldlM (fun scope e => Entry.apply e scope) scope).map fun scope =>
        scope.addLocations l :=
  foldlM_comm (g := fun scope : ServerScope => scope.addLocations l)
    (fun e he scope => Entry.apply_addLocations (by simpa using (List.mem_filter.mp he).2) scope l)
    scope

/-- **Locations and the others.**  The entries other than locations lead to a scope of their own, to
which the locations are added. -/
theorem foldlM_apply_eq (entries : List Entry) (scope : ServerScope) :
    entries.foldlM (fun scope e => Entry.apply e scope) scope =
      ((Entry.others entries).foldlM (fun scope e => Entry.apply e scope) scope).bind fun core =>
        (locationBlocks (Entry.locations entries)).map core.addLocations := by
  induction entries generalizing scope with
  | nil => exact congrArg some scope.addLocations_nil.symm
  | cons e entries ih =>
    cases e with
    | location target own =>
      have happly : (Entry.location target own).apply scope =
          (locationBlock target own).map fun location => scope.addLocations [location] := rfl
      have hblocks : locationBlocks ((target, own) :: Entry.locations entries) =
          (locationBlock target own).bind fun location =>
            (locationBlocks (Entry.locations entries)).map (location :: ·) := by
        rw [locationBlocks, List.mapM_cons]
        cases locationBlock target own with
        | none => rfl
        | some location => cases hrest : locationBlocks (Entry.locations entries) <;>
            (rw [locationBlocks] at hrest; simp [hrest])
      rw [List.foldlM_cons, happly, Entry.others_location_cons, Entry.locations_location_cons, hblocks]
      cases locationBlock target own with
      | none => cases (Entry.others entries).foldlM (fun scope e => Entry.apply e scope) scope <;> rfl
      | some location =>
        refine (ih _).trans ?_
        rw [Entry.foldlM_others_addLocations]
        cases (Entry.others entries).foldlM (fun scope e => Entry.apply e scope) scope with
        | none => rfl
        | some core =>
          cases locationBlocks (Entry.locations entries) with
          | none => rfl
          | some blocks => exact congrArg some (core.addLocations_append [location] blocks)
    | line dir args =>
      show ((Entry.line dir args).apply scope).bind _ =
        (((Entry.line dir args).apply scope).bind _).bind _
      rw [Option.bind_assoc]
      exact congrArg _ (funext fun scope => ih scope)
    | setting dir args =>
      show ((Entry.setting dir args).apply scope).bind _ =
        (((Entry.setting dir args).apply scope).bind _).bind _
      rw [Option.bind_assoc]
      exact congrArg _ (funext fun scope => ih scope)

/-! ## The block at its end -/

/-- A location with the settings of the server filled in. -/
def finalLocation (global : LocationBlock) (l : Bytes × List Setting) : LocationBlock :=
  ((locationBlock l.1 l.2).getD {}).fill global

theorem locationBlocks_eq_some_iff {locations : List (Bytes × List Setting)}
    {blocks : List LocationBlock} :
    locationBlocks locations = some blocks ↔
      (∀ l ∈ locations, (locationBlock l.1 l.2).isSome = true) ∧
        blocks = locations.map fun l => (locationBlock l.1 l.2).getD {} := by
  induction locations generalizing blocks with
  | nil =>
    refine ⟨fun h => ⟨(fun _ hl => nomatch hl), (Option.some.inj h).symm⟩, ?_⟩
    rintro ⟨-, rfl⟩
    rfl
  | cons l locations ih =>
    have hcons : locationBlocks (l :: locations) =
        (locationBlock l.1 l.2).bind fun location =>
          (locationBlocks locations).bind fun blocks => some (location :: blocks) := by
      rw [locationBlocks, List.mapM_cons]
      rfl
    rw [hcons, List.forall_mem_cons, List.map_cons]
    cases hl : locationBlock l.1 l.2 with
    | none => simp
    | some location =>
      simp only [Option.bind_some, Option.bind_eq_some_iff, ih, Option.isSome_some, true_and,
        Option.getD_some, Option.some.injEq]
      constructor
      · rintro ⟨_, ⟨hall, rfl⟩, rfl⟩
        exact ⟨hall, rfl⟩
      · rintro ⟨hall, rfl⟩
        exact ⟨_, ⟨hall, rfl⟩, rfl⟩

theorem foldlM_keeps {σ ι κ : Type} {f : σ → ι → Option σ} (p : σ → κ)
    (h : ∀ s i s', f s i = some s' → p s' = p s) :
    ∀ {l : List ι} {s s' : σ}, l.foldlM f s = some s' → p s' = p s
  | [], s, s', hl => by rw [Option.some.inj hl]
  | i :: l, s, s', hl => by
    rw [List.foldlM_cons] at hl
    obtain ⟨t, hi, hrest⟩ := Option.bind_eq_some_iff.mp hl
    exact (foldlM_keeps p h hrest).trans (h s i t hi)

theorem ServerLine.locations_of_apply {root : Path} {dir : ServerLine} {args : List Bytes}
    {server server' : ServerBlock} (h : dir.apply root args server = some server') :
    server'.locations = server.locations := by
  cases dir with
  | listen =>
    match args, h with
    | [value], h =>
      obtain ⟨host, -, rfl⟩ := Option.map_eq_some_iff.mp h
      rfl
  | serverName =>
    match args, h with
    | name :: names, h =>
      obtain rfl := (foldl_addName (name :: names) server).symm.trans (Option.some.inj h)
      rfl
  | errorPage =>
    match args, h with
    | code :: file :: args, h =>
      unfold apply at h
      dsimp only at h
      split_ifs at h with hroot
      · rw [Option.some.inj h]
      · refine foldlM_keeps ServerBlock.locations (fun s code s' hs => ?_) h
        obtain ⟨status, -, rfl⟩ := Option.map_eq_some_iff.mp hs
        rfl

/-- The entries other than locations add none. -/
theorem locations_of_others {entries : List Entry} {scope core : ServerScope}
    (h : (Entry.others entries).foldlM (fun scope e => Entry.apply e scope) scope = some core) :
    core.server.locations = scope.server.locations := by
  induction entries generalizing scope with
  | nil => rw [Option.some.inj h]
  | cons e entries ih =>
    cases e with
    | location target own => exact ih (by rwa [Entry.others_location_cons] at h)
    | line dir args =>
      obtain ⟨middle, hfirst, hrest⟩ := Option.bind_eq_some_iff.mp h
      obtain ⟨server, hserver, rfl⟩ := Option.map_eq_some_iff.mp hfirst
      exact (ih hrest).trans (ServerLine.locations_of_apply hserver)
    | setting dir args =>
      obtain ⟨middle, hfirst, hrest⟩ := Option.bind_eq_some_iff.mp h
      obtain ⟨location, -, rfl⟩ := Option.map_eq_some_iff.mp hfirst
      have hlocations := ih hrest
      exact hlocations

/-- The accumulator of the server holds what the settings at server level make of it. -/
theorem globalLocation_of_others {entries : List Entry} {scope core : ServerScope}
    (h : (Entry.others entries).foldlM (fun scope e => Entry.apply e scope) scope = some core) :
    (Entry.settings entries).foldlM (fun location s => s.1.apply s.2 location)
      scope.globalLocation = some core.globalLocation := by
  induction entries generalizing scope with
  | nil => rw [← Option.some.inj h]; rfl
  | cons e entries ih =>
    cases e with
    | location target own => exact ih (by rwa [Entry.others_location_cons] at h)
    | line dir args =>
      obtain ⟨middle, hfirst, hrest⟩ := Option.bind_eq_some_iff.mp h
      obtain ⟨server, hserver, rfl⟩ := Option.map_eq_some_iff.mp hfirst
      have hglobal := ih hrest
      exact hglobal
    | setting dir args =>
      obtain ⟨middle, hfirst, hrest⟩ := Option.bind_eq_some_iff.mp h
      obtain ⟨location, hlocation, rfl⟩ := Option.map_eq_some_iff.mp hfirst
      exact Option.bind_eq_some_iff.mpr ⟨location, hlocation, ih hrest⟩

/-- The block that entries describe: the entries other than locations, and the locations one by one. -/
theorem serverBlock_eq_some_iff {entries : List Entry} {server : ServerBlock} :
    serverBlock entries = some server ↔
      ∃ core, (Entry.others entries).foldlM (fun scope e => Entry.apply e scope) {} = some core ∧
        (∀ l ∈ Entry.locations entries, (locationBlock l.1 l.2).isSome = true) ∧
          server = { core.finish with
            locations := (Entry.locations entries).map (finalLocation core.globalLocation) } := by
  have hfinish : ∀ {core : ServerScope} (blocks : List LocationBlock),
      (Entry.others entries).foldlM (fun scope e => Entry.apply e scope) {} = some core →
        (core.addLocations blocks).finish =
          { core.finish with locations := blocks.map fun l => l.fill core.globalLocation } := by
    intro core blocks hcore
    have hnone : core.server.locations = [] := locations_of_others hcore
    unfold ServerScope.finish ServerScope.addLocations ServerBlock.fillLocations
    dsimp only
    rw [hnone, List.nil_append]
    split_ifs <;> rfl
  rw [serverBlock, serverScope, foldlM_apply_eq, Option.map_eq_some_iff]
  constructor
  · rintro ⟨scope, hscope, rfl⟩
    obtain ⟨core, hcore, hadd⟩ := Option.bind_eq_some_iff.mp hscope
    obtain ⟨blocks, hblocks, rfl⟩ := Option.map_eq_some_iff.mp hadd
    obtain ⟨hall, rfl⟩ := locationBlocks_eq_some_iff.mp hblocks
    refine ⟨core, hcore, hall, ?_⟩
    rw [hfinish _ hcore, List.map_map]
    rfl
  · rintro ⟨core, hcore, hall, rfl⟩
    refine ⟨core.addLocations ((Entry.locations entries).map fun l => (locationBlock l.1 l.2).getD {}),
      ?_, ?_⟩
    · rw [hcore, Option.bind_some, locationBlocks_eq_some_iff.mpr ⟨hall, rfl⟩]
      rfl
    · rw [hfinish _ hcore, List.map_map]
      rfl

/-- The body sizes of a block are below `2^31`, so that none becomes the number that stands for an unset
size. -/
def SmallSizes (entries : List Entry) : Prop :=
  (∀ s ∈ Entry.settings entries, s.1.IsSmall s.2) ∧
    ∀ l ∈ Entry.locations entries, ∀ s ∈ l.2, s.1.IsSmall s.2

/-- The locations of a server are those of the entries of its block, each a function of its own
entry, whose settings are inherited, and which stays the same when locations are moved. -/
structure Inherits (b : Block ServerEntry.items) (server : ServerBlock)
    (final : Bytes × List Setting → LocationBlock) : Prop where
  locations : server.locations = (Entry.locations b.texts).map final
  settings : SmallSizes b.texts → ∀ l ∈ Entry.locations b.texts,
    (final l).path = Path.ofString (l.1 ++ [slash]) ∧
      ∀ dir : LocationDirective, dir.value (final l) = dir.inherited l.2 (Entry.settings b.texts)
  moves : ∀ b' : Block ServerEntry.items, Entry.MovesLocations b'.texts b.texts →
    ∀ tokens token rest conf, tokens.drop token = b'.init ++ b'.closing :: rest →
      ∃ conf', serverDirective tokens token conf = .ok (token + b'.init.length, conf') ∧
        conf'.blocks =
          conf.blocks ++ [{ server with locations := (Entry.locations b'.texts).map final }]

/-- **Inheritance.**  In every server block that is accepted the setting of a location is the one given
in the location, or else at server level, or else the default; and no location changes when locations
are moved among the entries of the block. -/
theorem locations_inherit {tokens : List ConfToken} {token token' : Nat} {conf conf' : ConfFile}
    (h : serverDirective tokens token conf = .ok (token', conf')) :
    ∃ (b : Block ServerEntry.items) (rest : List ConfToken) (server : ServerBlock)
      (final : Bytes × List Setting → LocationBlock),
      tokens.drop token = b.init ++ b.closing :: rest ∧ conf'.blocks = conf.blocks ++ [server] ∧
        Inherits b server final := by
  obtain ⟨b, rest, server, hdrop, hserver, hblocks⟩ := exists_block_of_serverDirective h
  obtain ⟨core, hcore, hall, rfl⟩ := serverBlock_eq_some_iff.mp hserver
  refine ⟨b, rest, _, finalLocation core.globalLocation, hdrop, hblocks, ⟨rfl, ?_, ?_⟩⟩
  · rintro ⟨hsettings, hlocations⟩ l hl
    have hglobal := LocationDirective.setsAll_of_foldlM hsettings (globalLocation_of_others hcore)
    obtain ⟨location, hlocation⟩ := Option.isSome_iff_exists.mp (hall l hl)
    have hfinal : finalLocation core.globalLocation l = location.fill core.globalLocation := by
      rw [finalLocation, hlocation]
      rfl
    unfold locationBlock at hlocation
    split_ifs at hlocation with hpath
    have hown := LocationDirective.setsAll_of_foldlM (hlocations l hl) hlocation
    rw [hfinal]
    exact ⟨hown.path, LocationDirective.value_fill hown hglobal⟩
  · intro b' hmoves tokens₂ token₂ rest₂ conf₂ hdrop₂
    refine (serverDirective_iff hdrop₂).mpr (serverBlock_eq_some_iff.mpr ⟨core, ?_, ?_, rfl⟩)
    · rw [hmoves.others]
      exact hcore
    · exact fun l hl => hall l (hmoves.locations.mem_iff.mp hl)

/-- A server block whose root comes after one of its locations. -/
def inheritTokens : List ConfToken :=
  tokenizeFile (bytes "server \x7b\nlocation /a \x7b autoindex on; \x7d\nroot /r;\nlocation /b \x7b root /s; \x7d\n\x7d")

set_option maxRecDepth 10000 in
theorem locations_inherit_root :
    ∃ (token' : Nat) (conf' : ConfFile) (b : Block ServerEntry.items) (rest : List ConfToken)
      (server : ServerBlock) (final : Bytes × List Setting → LocationBlock),
      serverDirective inheritTokens 0 init = .ok (token', conf') ∧
        inheritTokens.drop 0 = b.init ++ b.closing :: rest ∧ conf'.blocks = [] ++ [server] ∧
          Inherits b server final := by
  have haccepted : (serverDirective inheritTokens 0 init).isOk = true := by decide +kernel
  cases hparse : serverDirective inheritTokens 0 init with
  | error e =>
    rw [hparse] at haccepted
    cases haccepted
  | ok r =>
    obtain ⟨b, rest, server, final, h⟩ := @locations_inherit _ _ _ _ r.2 hparse
    exact ⟨r.1, r.2, b, rest, server, final, rfl, h⟩

end Webserv
