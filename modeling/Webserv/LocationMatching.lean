import Webserv.Location
import Webserv.Lib.LongestPrefix

/-!
# The location of a target

`ServerBlock::findLocationBlock` walks the locations and keeps the longest whose components begin those of
the target.  The configuration parser puts a slash at the end of every location, so that the length it
compares is the number of components.

* `findLocationBlock_eq_longest`: the walk finds the first longest prefix.
* `StaysChosen`: what a chosen location must be in order to be chosen again.
* `findLocationBlock_decodeURI_iff`: the target is matched as it was sent.  The location of the decoded
  target is the same one exactly when that location matches it too and no longer one does.

## Why the walk is a fold

The loop keeps the best location so far and compares lengths with `>`, so that of two equally long ones the
first stays.  The library has this search as `longest`, over any list with keys, with its two properties:
the result matches, and nothing before it is as long and nothing at all is longer.  What is left for the
code is that a match of a location is a prefix of component lists (`LocationBlock.isMatch_iff`), and that
the length the loop looks at is the length of this key.  The second holds for the paths that the parser
makes, which is `Configured`.

## Why the decoding matters

The target is decoded when the path behind the root is made, after a location was chosen.  A letter of a
location can be encoded in the target, and then the location does not match, although the path comes out the
same.  A `%2f` decodes to a slash, and one component becomes two.  So a target and its decoding may have
different locations, with different methods and different limits, and the theorem says when they have the
same.
-/

namespace Webserv

open LongestPrefix

/-- The locations of a block as the configuration parser makes them: their paths end with a
slash. -/
def ServerBlock.Configured (block : ServerBlock) : Prop :=
  ∀ loc ∈ block.locations, loc.path.isDirFormat = true

instance (block : ServerBlock) : Decidable block.Configured :=
  inferInstanceAs (Decidable (∀ loc ∈ block.locations, _))

/-- The key of a location: its components.  A target is matched by components and not by letters. -/
abbrev LocationBlock.key (loc : LocationBlock) : List Bytes := loc.path.chunks

theorem LocationBlock.isMatch_iff {loc : LocationBlock} {target : Path} :
    loc.isMatch target = true ↔ loc.key <+: target.chunks := by
  unfold LocationBlock.isMatch Path.prefixMatch
  exact List.isPrefixOf_iff_prefix

namespace ServerBlock

/-- The loop, from a selected location that is shorter than the target. -/
theorem findLocationLoop_eq_foldl (target : Path) :
    ∀ (locations : List LocationBlock) (selected : Option LocationBlock),
      (∀ loc ∈ locations, loc.path.isDirFormat = true) →
      (∀ loc ∈ selected, loc.key.length < target.length) →
      findLocationLoop target locations selected
          ((selected.map fun loc => loc.key.length).getD 0) =
        locations.foldl (pick LocationBlock.key target.chunks) selected
  | [], selected, _, _ => rfl
  | loc :: locations, selected, hdir, hshort => by
    have hrest : ∀ loc ∈ locations, loc.path.isDirFormat = true :=
      fun loc hloc => hdir loc (List.mem_cons_of_mem _ hloc)
    have ih := fun selected => findLocationLoop_eq_foldl target locations selected hrest
    have hbegins : loc.path.prefixLength = loc.key.length := by
      rw [Path.prefixLength, if_pos (hdir loc (List.mem_cons_self ..))]
    rw [List.foldl_cons, findLocationLoop, hbegins]
    by_cases hmatch : loc.key <+: target.chunks
    · have hle : loc.key.length ≤ target.length := hmatch.length_le
      have hnot : ¬ loc.path.length > target.length := not_lt.mpr hle
      rw [if_neg hnot, if_pos (LocationBlock.isMatch_iff.mpr hmatch)]
      by_cases hfull : loc.key.length = target.length
      · -- the loop stops at once; the rest of the table would change nothing
        have hpick : pick LocationBlock.key target.chunks selected loc = some loc := by
          cases selected with
          | none => exact pick_none hmatch
          | some y =>
            have hy : y.key.length < target.length := hshort y rfl
            rw [pick_some hmatch, if_pos (by omega)]
        rw [if_pos hfull, hpick]
        exact (foldl_pick_of_length_eq hfull locations).symm
      · have hlt : ∀ y ∈ some loc, y.key.length < target.length := by
          intro y hy
          cases hy
          omega
        rw [if_neg hfull]
        cases selected with
        | none =>
          rw [pick_none hmatch]
          exact (if_pos (Or.inr rfl)).trans (ih (some loc) hlt)
        | some y =>
          rw [pick_some hmatch]
          by_cases hlonger : y.key.length < loc.key.length
          · rw [if_pos hlonger]
            exact (if_pos (Or.inl hlonger)).trans (ih (some loc) hlt)
          · have hkeep : ¬ (loc.key.length > y.key.length ∨ (some y).isNone = true) := by
              rintro (h | h)
              · exact hlonger h
              · exact absurd h Bool.false_ne_true
            rw [if_neg hlonger]
            exact (if_neg hkeep).trans (ih (some y) hshort)
    · have hno : ¬ loc.isMatch target = true := fun h => hmatch (LocationBlock.isMatch_iff.mp h)
      rw [pick_eq_self hmatch, if_neg hno, ite_self]
      exact ih selected hshort

/-- The location found is the first longest one that matches. -/
theorem findLocationBlock_eq_longest {block : ServerBlock} (hblock : block.Configured)
    (target : Path) :
    block.findLocationBlock target = longest LocationBlock.key target.chunks block.locations :=
  findLocationLoop_eq_foldl target block.locations none hblock (by simp)

/-- What a location chosen for one target has to be in order to be chosen for another: a match that
no longer location beats; and where none was chosen, none matches. -/
def StaysChosen (block : ServerBlock) (target : Path) : Option LocationBlock → Prop
  | some loc => loc.isMatch target = true ∧
      ∀ loc' ∈ block.locations, loc'.isMatch target = true → loc'.path.length ≤ loc.path.length
  | none => ∀ loc ∈ block.locations, loc.isMatch target = false

instance (block : ServerBlock) (target : Path) :
    ∀ chosen, Decidable (block.StaysChosen target chosen)
  | some _ => inferInstanceAs (Decidable (_ ∧ ∀ loc' ∈ block.locations, _ → _))
  | none => inferInstanceAs (Decidable (∀ loc ∈ block.locations, _))

/-- **The target is matched as it was sent.**  The location chosen for a target is the one chosen
for the decoded target exactly when it matches the decoded target too and no longer location does;
when none is chosen, exactly when none matches the decoded target. -/
theorem findLocationBlock_decodeURI_iff (block : ServerBlock) (hblock : block.Configured)
    (t : Bytes) :
    block.findLocationBlock (Path.ofString t) =
        block.findLocationBlock (Path.ofString (decodeURI t)) ↔
      block.StaysChosen (Path.ofString (decodeURI t))
        (block.findLocationBlock (Path.ofString t)) := by
  rw [findLocationBlock_eq_longest hblock, findLocationBlock_eq_longest hblock]
  cases hsent : longest LocationBlock.key (Path.ofString t).chunks block.locations with
  | none =>
    rw [eq_comm, longest_eq_none_iff]
    refine forall₂_congr fun loc _ => ?_
    rw [← LocationBlock.isMatch_iff, Bool.not_eq_true]
  | some loc =>
    rw [eq_comm, longest_eq_iff hsent, ← LocationBlock.isMatch_iff]
    refine and_congr_right fun _ => forall₂_congr fun loc' _ => ?_
    rw [← LocationBlock.isMatch_iff]
    rfl

/-- A block with a location inside another one. -/
def adminBlock : ServerBlock where
  locations := [{ path := Path.ofString (bytes "/") }, { path := Path.ofString (bytes "/admin/") }]

/-- A target with an encoded letter after the name of the location. -/
theorem findLocationBlock_decodeURI_iff_admin :
    adminBlock.findLocationBlock (Path.ofString (bytes "/admin/%78")) =
      adminBlock.findLocationBlock (Path.ofString (decodeURI (bytes "/admin/%78"))) :=
  (findLocationBlock_decodeURI_iff adminBlock (by decide) (bytes "/admin/%78")).mpr (by decide)

/-- An encoded letter in the name of the location hides it. -/
theorem findLocationBlock_decodeURI_ne :
    (bytes "/%61dmin/x").head? = some slash ∧
      adminBlock.findLocationBlock (Path.ofString (bytes "/%61dmin/x")) ≠
        adminBlock.findLocationBlock (Path.ofString (decodeURI (bytes "/%61dmin/x"))) := by
  refine ⟨by decide, fun h => ?_⟩
  have hpath := congrArg (Option.map fun loc => loc.path.str) h
  revert hpath
  decide

end ServerBlock
end Webserv
