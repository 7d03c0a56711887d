import Webserv.LocationMatching
import Webserv.Configuration.Inheritance

/-!
# Routing

The parser puts a slash behind the path of every location, and no later step changes it.  So the three
shortcuts of `findLocationBlock` compare numbers of components, and amount to the first longest match.

* `configured_of_parse`: the blocks of an accepted file.
* `FirstLongest`: the location that should be found.
* `findLocationBlock_firstLongest`: it is the one that is found.

## Why the parser is needed

The search skips a location with more components than the target, stops at one whose `prefixLength` is the
length of the target, and otherwise keeps the larger `prefixLength`.  This number leaves the last component
out when the path has no slash at its end, so the shortcuts are right for paths that have one.  Whether a
location has this form is decided by the parser, so the statement has two halves.  The locations of every
accepted file have the form, whatever else is in the file.  And in a block of such locations, in any order,
the one found is the first among the longest that begin the target.

## How a property of blocks is lifted

A block of an accepted file is the value of its entries.  `blocks_of_parse` takes a property that every such
value has to all blocks of all accepted files; other modules use it for the paths and the directories of
locations.
-/

namespace Webserv

open ConfFile TokenCursor

/-! ## The locations of an accepted file -/

/-- The path of a location ends with a slash. -/
theorem isDirFormat_finalLocation {global : LocationBlock} {l : Bytes × List Setting}
    (hl : (locationBlock l.1 l.2).isSome = true) :
    (finalLocation global l).path.isDirFormat = true := by
  obtain ⟨location, hlocation⟩ := Option.isSome_iff_exists.mp hl
  have hfinal : (finalLocation global l).path = location.path := by
    rw [finalLocation, hlocation]
    rfl
  unfold locationBlock at hlocation
  split_ifs at hlocation with hpath
  have hkept : location.path = Path.ofString (l.1 ++ [slash]) :=
    foldlM_keeps LocationBlock.path (fun _ _ _ h => (LocationDirective.sets_of_apply h).path) hlocation
  rw [hfinal, hkept, Path.isDirFormat, Path.ofString_str, getLast?_squeeze, List.getLast?_concat]
  exact decide_eq_true rfl

/-- The locations of a block that entries describe. -/
theorem configured_of_serverBlock {entries : List Entry} {server : ServerBlock}
    (h : serverBlock entries = some server) : server.Configured := by
  obtain ⟨core, -, hall, rfl⟩ := serverBlock_eq_some_iff.mp h
  intro loc hloc
  obtain ⟨l, hl, rfl⟩ := List.mem_map.mp hloc
  exact isDirFormat_finalLocation (hall l hl)

theorem blocks_of_takeTimeout {type : Timeout} {directive value : ConfToken} {conf conf' : ConfFile}
    (h : takeTimeout type directive value conf = .ok conf') : conf'.blocks = conf.blocks := by
  unfold takeTimeout at h
  cases hvalue : stoi (-2 ^ 31) int32Max value.str with
  | none =>
    rw [hvalue] at h
    cases h
  | some duration =>
    rw [hvalue] at h
    dsimp only at h
    split_ifs at h
    obtain rfl := Except.ok.inj h
    rfl

section Blocks

variable {P : ServerBlock → Prop} (hP : ∀ {entries server}, serverBlock entries = some server → P server)

include hP

/-- One item of a file, for what holds of every block that entries describe. -/
theorem blocks_of_eval {i : Item} {conf conf' : ConfFile} (h : i.eval conf = .ok conf')
    (hconf : ∀ block ∈ conf.blocks, P block) : ∀ block ∈ conf'.blocks, P block := by
  cases i with
  | timeout l =>
    obtain ⟨w, hargs⟩ := exists_word_of_oneArgValue h
    change oneArgValue (takeTimeout l.dir) l.directive l.args conf = .ok conf' at h
    rw [hargs] at h
    rwa [blocks_of_takeTimeout h]
  | server b hname =>
    change (Item.scope b).map _ = .ok conf' at h
    cases hscope : Item.scope b with
    | error e =>
      rw [hscope] at h
      cases h
    | ok scope =>
      rw [hscope] at h
      obtain rfl := Except.ok.inj h
      have hblock : serverBlock b.texts = some scope.finish := by
        rw [serverBlock, ← scope_toOption, hscope]
        rfl
      intro block hmem
      rcases List.mem_append.mp hmem with hmem | hmem
      · exact hconf block hmem
      · obtain rfl := List.mem_singleton.mp hmem
        exact hP hblock
  | types b hname =>
    change (b.body.foldlM (fun mimetypes l => TypeLine.eval l mimetypes) conf.mimetypes).map _ =
      .ok conf' at h
    cases htypes : b.body.foldlM (fun mimetypes l => TypeLine.eval l mimetypes) conf.mimetypes with
    | error e =>
      rw [htypes] at h
      cases h
    | ok mimetypes =>
      rw [htypes] at h
      obtain rfl := Except.ok.inj h
      exact hconf

theorem blocks_of_foldlM : ∀ {items : List Item} {conf conf' : ConfFile},
    items.foldlM (fun conf i => i.eval conf) conf = .ok conf' →
      (∀ block ∈ conf.blocks, P block) → ∀ block ∈ conf'.blocks, P block
  | [], conf, conf', h, hconf => by
    obtain rfl := Except.ok.inj h
    exact hconf
  | i :: items, conf, conf', h, hconf => by
    rw [List.foldlM_cons] at h
    cases hi : i.eval conf with
    | error e =>
      rw [hi] at h
      cases h
    | ok middle =>
      rw [hi] at h
      exact blocks_of_foldlM h (blocks_of_eval hP hi hconf)

/-- The blocks of an accepted file. -/
theorem blocks_of_parse {file : Except Bytes Bytes} {token : Nat} {conf : ConfFile}
    (h : parse ConfFile.init file = .ok (token, conf)) : ∀ block ∈ conf.blocks, P block := by
  cases file with
  | error strerror => cases h
  | ok content =>
    change parseTokens (tokenizeFile content) ConfFile.init = .ok (token, conf) at h
    rcases parseTokens_cases (tokenizeFile content) ConfFile.init with
      ⟨items, conf', -, hfold, hparse⟩ | ⟨e, he⟩
    · obtain ⟨-, rfl⟩ := Prod.mk.inj (Except.ok.inj (hparse.symm.trans h))
      exact blocks_of_foldlM hP hfold fun block hmem => nomatch hmem
    · rw [he] at h
      cases h

end Blocks

theorem configured_of_parse {file : Except Bytes Bytes} {token : Nat} {conf : ConfFile}
    (h : parse ConfFile.init file = .ok (token, conf)) : ∀ block ∈ conf.blocks, block.Configured :=
  blocks_of_parse configured_of_serverBlock h

/-! ## The location of a target -/

namespace ServerBlock

/-- The location for a target: its components begin those of the target, no location that does so before
it is as long, and none behind it is longer. -/
def FirstLongest (block : ServerBlock) (target : Path) (loc : LocationBlock) : Prop :=
  ∃ before after, block.locations = before ++ loc :: after ∧ loc.path.chunks <+: target.chunks ∧
    (∀ other ∈ before, other.path.chunks <+: target.chunks →
      other.path.chunks.length < loc.path.chunks.length) ∧
    ∀ other ∈ after, other.path.chunks <+: target.chunks →
      other.path.chunks.length ≤ loc.path.chunks.length

/-- **Routing.**  The locations that the parser accepts end with a slash.  Among such locations, in
whatever order they stand, none is found exactly if none begins the target; otherwise the one found is
the first of the longest that do. -/
theorem findLocationBlock_firstLongest :
    (∀ file token conf, parse ConfFile.init file = .ok (token, conf) →
        ∀ block ∈ conf.blocks, block.Configured) ∧
      ∀ block : ServerBlock, block.Configured → ∀ target : Path,
        (block.findLocationBlock target = none ↔
          ∀ loc ∈ block.locations, ¬ loc.path.chunks <+: target.chunks) ∧
        ∀ loc, block.findLocationBlock target = some loc ↔ block.FirstLongest target loc := by
  refine ⟨fun file token conf h => configured_of_parse h, fun block hblock target => ⟨?_, fun loc => ?_⟩⟩
  · rw [findLocationBlock_eq_longest hblock, LongestPrefix.longest_eq_none_iff]
  · rw [findLocationBlock_eq_longest hblock, LongestPrefix.longest_eq_some_iff,
      LongestPrefix.isLongest_iff_split]
    rfl

theorem findLocationBlock_firstLongest_admin :
    (adminBlock.findLocationBlock (Path.ofString (bytes "/admin/x")) = none ↔
        ∀ loc ∈ adminBlock.locations,
          ¬ loc.path.chunks <+: (Path.ofString (bytes "/admin/x")).chunks) ∧
      ∀ loc, adminBlock.findLocationBlock (Path.ofString (bytes "/admin/x")) = some loc ↔
        adminBlock.FirstLongest (Path.ofString (bytes "/admin/x")) loc :=
  findLocationBlock_firstLongest.2 adminBlock (by decide) (Path.ofString (bytes "/admin/x"))

end ServerBlock
end Webserv
