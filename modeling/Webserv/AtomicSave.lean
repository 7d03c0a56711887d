import Webserv.Effects.Saving

/-!
# Saving an upload

`_saveFile` removes the target, if `access` finds one, before it renames the temporary file, and goes on to
`rename` when `remove` has failed.

* `AllOrNothing`: the upload is at its target with 201, or the target is as it was, with 500.
* `targetNode_saveWith`, `statusCode_saveWith`: the target and the status after the calls.
* `allOrNothing_iff`: that is so exactly when `remove`, if it is called, and `rename` both succeed or both
  fail.

## Why three answers decide

`rename` alone would do: it replaces the target in one step, or leaves it.  The call of `remove` in front of
it makes four outcomes of two.  When both calls fail nothing has happened, and the status is 500.  When both
succeed the file is saved.  When `remove` succeeds and `rename` fails, the old file is gone and the new one
was not put there.  When `remove` fails and `rename` succeeds, the new file is there and the answer is still
500, since the status of the first failure is not taken back.

## Why the answers are left open

What `access`, `remove` and `rename` answer is up to the kernel: rights change between the calls, and other
processes write to the directory.  So the answer of `access` is a parameter (`saveWith`), and those of the
others come with the `Sys`; the one of the source is the case that `saveFile_eq_saveWith` names.  About the
names there is one assumption, that the temporary file and the target are two entries as the kernel resolves
them.  If they were one, `remove` would take the upload itself.
-/

namespace Webserv
namespace Handler

open FileSystem

variable {sys : Sys} {found : Bool} {h : Handler}

/-- `_saveFile` without a CGI, with the answer of `access` left open: it may be another one than the file
system gives afterwards. -/
def saveWith (sys : Sys) (found : Bool) (h : Handler) : Handler := publishWith sys found h.closeFile

theorem saveFile_eq_saveWith (hfile : h.request.cgiPath = none) :
    saveFile sys h =
      (.reqContinue, saveWith sys (h.request.path.access h.context.world.fs .exists) h) := by
  rw [saveFile_of_file sys hfile, publish_eq_publishWith]
  rfl

/-- What the target leads to, resolved as the kernel does it. -/
def targetNode (h : Handler) : Option Node := h.context.world.fs.node (cstr h.request.path.str)

/-- What `std::remove` of the target answers. -/
def removesTarget (sys : Sys) (h : Handler) : Bool := (sys.remove h.context.world.fs h.request.path.str).1

/-- What `std::rename` of the temporary file answers. -/
def renamesFile (sys : Sys) (h : Handler) : Bool :=
  (sys.rename h.context.world.fs h.request.tmpFilename.str h.request.path.str).1

/-- A save of the content `c` from `h` to `h'` is all or nothing. -/
structure AllOrNothing (sys : Sys) (h h' : Handler) (c : Bytes) : Prop where
  outcome : h'.context.response.statusCode = statusCreated ∧
      (∃ n, h'.targetNode = some n ∧ n.kind = .regular c) ∨
    h'.context.response.statusCode = statusInternalServerError ∧ h'.targetNode = h.targetNode
  keeps : h.targetNode.isSome = true → h'.targetNode.isSome = true
  honest : h'.context.response.statusCode = statusInternalServerError → renamesFile sys h = false

/-- The temporary file and the target are two entries, so that each has its own content. -/
def TwoEntries (h : Handler) : Prop :=
  let fs := h.context.world.fs
  fs.entry (cstr h.request.tmpFilename.str) ≠ fs.entry (cstr h.request.path.str)

instance (h : Handler) : Decidable h.TwoEntries := inferInstanceAs (Decidable (_ ≠ _))

/-! ## The calls -/

/-- Without the target the temporary file is still there: the two names lead to different entries, so that
`remove` of the one cannot take the other. -/
theorem node_cleared (hne : h.TwoEntries) :
    (cleared sys found h).node (cstr h.request.tmpFilename.str) =
      h.context.world.fs.node (cstr h.request.tmpFilename.str) := by
  unfold cleared
  split_ifs
  · rw [remove_snd]
    split_ifs
    · exact node_without_of_ne hne
    · rfl
  · rfl

/-- The removal of the target does not decide whether the file can be renamed. -/
theorem rename_cleared (hne : h.TwoEntries) :
    (sys.rename (cleared sys found h) h.request.tmpFilename.str h.request.path.str).1 = renamesFile sys h := by
  rw [renamesFile, rename_fst, rename_fst, node_cleared hne]

/-- The target after `remove` and `rename`, from their answers. -/
theorem targetNode_saveWith (hne : h.TwoEntries) :
    (saveWith sys found h).targetNode =
      if renamesFile sys h then h.context.world.fs.node (cstr h.request.tmpFilename.str)
      else if found && removesTarget sys h then none else h.targetNode := by
  have hsave : (saveWith sys found h).targetNode = (sys.remove (sys.rename (cleared sys found h)
      h.request.tmpFilename.str h.request.path.str).2 h.request.tmpFilename.str).2.node
        (cstr h.request.path.str) := by
    rw [targetNode, saveWith, publishWith_eq]
    rfl
  have hentry : (cleared sys found h).entry = h.context.world.fs.entry := by
    unfold cleared
    split_ifs
    · exact entry_remove sys
    · rfl
  -- the last `remove` is of another entry
  have hlast : ∀ fs : FileSystem, fs.entry = h.context.world.fs.entry →
      (sys.remove fs h.request.tmpFilename.str).2.node (cstr h.request.path.str) =
        fs.node (cstr h.request.path.str) := by
    intro fs hfs
    rw [remove_snd]
    split_ifs
    · exact node_without_of_ne (by rw [hfs]; exact hne.symm)
    · rfl
  rw [hsave, hlast _ ((entry_rename sys _).trans hentry)]
  have hrename := @rename_cleared sys found h hne
  have hnode := @node_cleared sys found h hne
  by_cases hmoved : renamesFile sys h = true
  · rw [if_pos hmoved, ← hnode]
    rw [hmoved] at hrename
    unfold Sys.rename at hrename ⊢
    cases htmp : (cleared sys found h).node (cstr h.request.tmpFilename.str) with
    | none =>
      rw [htmp] at hrename
      cases hrename
    | some n =>
      rw [htmp] at hrename
      dsimp only at hrename ⊢
      split_ifs at hrename ⊢
      exact node_update_self _
  · rw [if_neg hmoved, rename_of_false (by rw [hrename]; exact Bool.eq_false_iff.mpr hmoved), cleared]
    cases found with
    | false => rfl
    | true =>
      rw [if_pos rfl, Bool.true_and, remove_snd, removesTarget, remove_fst]
      split_ifs
      · exact node_without_self
      · rfl

theorem statusCode_saveWith (hne : h.TwoEntries) :
    (saveWith sys found h).context.response.statusCode =
      if (found = true → removesTarget sys h = true) ∧ renamesFile sys h = true then statusCreated
      else statusInternalServerError := by
  rw [← @rename_cleared sys found h hne, saveWith, publishWith_eq]
  rfl

/-- **Saving an upload.**  It is all or nothing exactly when `remove`, if `access` has found the target, and
`rename` both succeed or both fail. -/
theorem allOrNothing_iff {c : Bytes} (hne : h.TwoEntries)
    (hcontent : ∀ n, h.context.world.fs.node (cstr h.request.tmpFilename.str) = some n → n.kind = .regular c) :
    AllOrNothing sys h (saveWith sys found h) c ↔
      (found = true → removesTarget sys h = renamesFile sys h) := by
  have hnode := @targetNode_saveWith sys found h hne
  have hstatus := @statusCode_saveWith sys found h hne
  have hcodes : statusInternalServerError ≠ statusCreated := by decide
  by_cases hmoved : renamesFile sys h = true
  · rw [if_pos hmoved] at hnode
    -- `rename` succeeded, so the temporary file was there
    have hsome : ∃ n, h.context.world.fs.node (cstr h.request.tmpFilename.str) = some n := by
      rw [renamesFile, rename_fst, Bool.and_eq_true] at hmoved
      exact Option.isSome_iff_exists.mp hmoved.1
    obtain ⟨n, hn⟩ := hsome
    by_cases hremoved : found = true → removesTarget sys h = true
    · rw [if_pos ⟨hremoved, hmoved⟩] at hstatus
      refine iff_of_true ⟨Or.inl ⟨hstatus, n, hnode.trans hn, hcontent n hn⟩, fun _ => ?_, fun h500 => ?_⟩
        fun hfound => (hremoved hfound).trans hmoved.symm
      · rw [hnode, hn]
        rfl
      · exact absurd (h500.symm.trans hstatus) hcodes
    · -- replaced, and reported as an error
      rw [if_neg fun hand => hremoved hand.1] at hstatus
      refine iff_of_false (fun hsaved => ?_) fun hiff => hremoved fun hfound => (hiff hfound).trans hmoved
      rw [hsaved.honest hstatus] at hmoved
      cases hmoved
  · have hfails : renamesFile sys h = false := Bool.eq_false_iff.mpr hmoved
    rw [if_neg hmoved] at hnode
    rw [if_neg fun hand => hmoved hand.2] at hstatus
    rw [hfails]
    cases hremoved : found && removesTarget sys h with
    | false =>
      rw [hremoved, if_neg Bool.false_ne_true] at hnode
      refine iff_of_true ⟨Or.inr ⟨hstatus, hnode⟩, fun hsome => ?_, fun _ => hfails⟩ fun hfound => ?_
      · rw [hnode]
        exact hsome
      · rw [hfound, Bool.true_and] at hremoved
        exact hremoved
    | true =>
      -- removed, and not replaced
      rw [hremoved, if_pos rfl] at hnode
      obtain ⟨hfound, hgone⟩ := Bool.and_eq_true_iff.mp hremoved
      refine iff_of_false (fun hsaved => ?_) fun hiff => ?_
      · have hsome : h.targetNode.isSome = true := by
          rw [removesTarget, remove_fst, Bool.and_eq_true] at hgone
          exact hgone.1
        have hkept := hsaved.keeps hsome
        rw [hnode] at hkept
        cases hkept
      · rw [hiff hfound] at hgone
        cases hgone

/-- An upload of one byte over a file of another. -/
def overwriting : Handler where
  context := {
    server := .single 3 {} fun _ => 0
    world := {
      fs := {
        table := fun p =>
          if p = bytes "/f" then some { kind := .regular (bytes "p") }
          else if p = bytes "/f.a.tmp" then some { kind := .regular (bytes "c") }
          else none } } }
  request := {
    kind := .put
    path := Path.ofString (bytes "/f")
    cgiPath := none
    tmpFilename := Path.ofString (bytes "/f.a.tmp")
    file := { isOpen := true, written := bytes "c" } }

theorem overwriting_content (n : Node)
    (hn : overwriting.context.world.fs.node (cstr overwriting.request.tmpFilename.str) = some n) :
    n.kind = .regular (bytes "c") := by
  have hnode : overwriting.context.world.fs.node (cstr overwriting.request.tmpFilename.str) =
      some { kind := .regular (bytes "c") } := by decide
  rw [hnode] at hn
  cases hn
  rfl

/-- All calls succeed. -/
theorem allOrNothing_iff_quiet :
    AllOrNothing (Sys.quiet 0) overwriting (saveWith (Sys.quiet 0) true overwriting) (bytes "c") ↔
      (true = true → removesTarget (Sys.quiet 0) overwriting = renamesFile (Sys.quiet 0) overwriting) :=
  allOrNothing_iff (by decide) overwriting_content

/-- `rename` fails after the target was removed: 500, and the old file is gone. -/
theorem not_allOrNothing :
    let sys : Sys := { Sys.quiet 0 with renameFails := fun _ => true }
    (saveFile sys overwriting).2.context.response.statusCode = statusInternalServerError ∧
      overwriting.targetNode = some { kind := .regular (bytes "p") } ∧
      (saveFile sys overwriting).2.targetNode = none ∧
      ¬ AllOrNothing sys overwriting (saveFile sys overwriting).2 (bytes "c") := by
  intro sys
  have hgone : (saveFile sys overwriting).2.targetNode = none := by decide
  refine ⟨by decide, by decide, hgone, fun hsaved => ?_⟩
  have hkept := hsaved.keeps (by decide)
  rw [hgone] at hkept
  cases hkept

end Handler
end Webserv
