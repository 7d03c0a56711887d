import Webserv.Client
import Webserv.RootConfinement

/-!
# The listing of a directory

A listing goes out in batches of 128 rows, one for each call of `_readDir`; the entry `.` has no row and
does not count.  Between two calls the client sends, and the file system changes.  A batch is handed over as
a C string, so a NUL in a row takes the rest of the batch away: the names and the times are C strings
themselves, the value of `Host` and the target are not.

* `readEntries_last`, `readEntries_full`: one batch.
* `Lists`: the state between two calls.
* `DirCall`, `dirCalls`: the calls until `WORK_OUT` is set.
* `IsListing`: what the calls should amount to.
* `isListing_iff`: when they do.

## Why each row has its own call

A row shows the size and the time of an entry, which are looked up when the row is made.  The listing takes
as many calls as there are batches, and between two calls other processes may change what the rows show.  So
there is no one list of rows that a directory has.  A `DirCall` keeps the handler as the call finds it, and
a row of the listing is the row of its entry at the call that makes it.  The order, and that no entry is
left out or shown twice, are about the entries alone.

## Why a NUL matters

The rows are gathered in a string, and the string goes to the output by `c_str()`.  Whatever holds no NUL is
appended whole (`cstr_rows`).  The names of the entries come from the kernel and the sizes are digits, so
the only parts of a row that may hold a NUL are the value of `Host` and the target, both as the client has
sent them.  They are in the address of every row, so the first row already ends there, and the footer is
lost with the last batch.
-/

namespace Webserv

/-! ## Rows without NUL -/

theorem zero_not_mem_cstr (s : Bytes) : (0 : Byte) ∉ cstr s := by
  intro h
  have hne := List.mem_takeWhile_imp h
  exact absurd hne (by decide)

theorem zero_not_mem_numToStr (z : Int) : (0 : Byte) ∉ numToStr z := by
  have hdecimal : ∀ n : Nat, (0 : Byte) ∉ decimal n := fun n h =>
    absurd (isdigit_of_mem_decimal h) (by decide)
  cases z with
  | ofNat n => exact hdecimal n
  | negSucc n =>
    have hminus : numToStr (Int.negSucc n) = 45 :: decimal (n + 1) := by
      have hrepr : toString (Int.negSucc n) = "-" ++ Nat.repr (n + 1) := rfl
      rw [numToStr, hrepr, bytes, String.toList_append, List.flatMap_append]
      rfl
    rw [hminus, List.mem_cons, not_or]
    exact ⟨by decide, hdecimal (n + 1)⟩

section Rows

variable {path name time size : Bytes}

theorem zero_mem_htmlFile : (0 : Byte) ∈ htmlFile path name time size ↔
    0 ∈ path ∨ 0 ∈ name ∨ 0 ∈ time ∨ 0 ∈ size := by
  simp +decide [htmlFile, bytes]

theorem zero_mem_htmlDir : (0 : Byte) ∈ htmlDir path name time ↔ 0 ∈ path ∨ 0 ∈ name ∨ 0 ∈ time := by
  simp +decide [htmlDir, bytes]

theorem zero_mem_htmlOther : (0 : Byte) ∈ htmlOther path name time ↔ 0 ∈ path ∨ 0 ∈ name ∨ 0 ∈ time := by
  simp +decide [htmlOther, bytes]

theorem zero_mem_htmlWeird : (0 : Byte) ∈ htmlWeird path name ↔ 0 ∈ path ∨ 0 ∈ name := by
  simp +decide [htmlWeird, bytes]

end Rows

namespace Handler

theorem zero_not_mem_bytesToUnit (n : Int) : (0 : Byte) ∉ bytesToUnit n := by
  unfold bytesToUnit
  split_ifs <;>
  · rw [List.mem_append, not_or]
    exact ⟨zero_not_mem_numToStr _, by decide +kernel⟩

theorem zero_not_mem_entryName {name : Bytes} (h : (0 : Byte) ∉ name) : (0 : Byte) ∉ entryName name := by
  unfold entryName
  split_ifs
  · rw [List.mem_append, not_or]
    exact ⟨fun h0 => h (List.mem_of_mem_take h0), by decide +kernel⟩
  · exact h

/-- What the addresses in the rows begin with: the value of `Host` and the target. -/
def rowBase (h : Handler) : Bytes := (h.context.headers.find? headerHost).getD [] ++ h.context.target

/-- A row holds a NUL if the value of `Host` or the target does. -/
theorem zero_mem_entryRow_iff {sys : Sys} {h : Handler} {name : Bytes} (hname : (0 : Byte) ∉ name)
    (htimes : ∀ time, (0 : Byte) ∉ sys.strftime time) :
    (0 : Byte) ∈ entryRow sys h name ↔ 0 ∈ h.rowBase := by
  have hpath : (0 : Byte) ∈ (h.context.headers.find? headerHost).getD [] ++ h.context.target ++ name ↔
      0 ∈ h.rowBase := by
    rw [List.mem_append, or_iff_left hname]
    rfl
  have hshort := zero_not_mem_entryName hname
  unfold entryRow
  dsimp only
  cases (Path.ofString (h.request.path.str ++ name)).stat sys h.context.world.fs with
  | none =>
    dsimp only
    rw [zero_mem_htmlWeird, hpath, or_iff_left hshort]
  | some entry =>
    have htime := htimes entry.mTime
    dsimp only
    split_ifs
    · rw [zero_mem_htmlDir, hpath, or_iff_left (not_or.mpr ⟨hshort, htime⟩)]
    · have hsize : (0 : Byte) ∉ space :: bytesToUnit entry.size := by
        rw [List.mem_cons, not_or]
        exact ⟨by decide, zero_not_mem_bytesToUnit _⟩
      rw [zero_mem_htmlFile, hpath, or_iff_left (not_or.mpr ⟨hshort, not_or.mpr ⟨htime, hsize⟩⟩)]
    · rw [zero_mem_htmlOther, hpath, or_iff_left (not_or.mpr ⟨hshort, htime⟩)]

theorem zero_not_mem_htmlFooter : (0 : Byte) ∉ htmlFooter := by
  decide +kernel

/-! ## One batch -/

/-- The entries that have a row: all but `.`. -/
def shown (entries : List Bytes) : List Bytes := entries.filter (· ≠ [dot])

theorem shown_dot (entries : List Bytes) : shown ([dot] :: entries) = shown entries := rfl

theorem shown_cons {name : Bytes} (hname : name ≠ [dot]) (entries : List Bytes) :
    shown (name :: entries) = name :: shown entries :=
  List.filter_cons_of_pos (decide_eq_true hname)

section Batches

variable {row : Bytes → Bytes} {fails : Nat → Bool}

/-- Fewer entries are left than the batch has room for: all their rows, and the end of the stream. -/
theorem readEntries_last (hfails : ∀ n, fails n = false) : ∀ {entries : List Bytes} {count n : Nat}
    {buffer : Bytes}, count + (shown entries).length < reqDirBufferSize →
      readEntries row fails entries count n buffer = (buffer ++ (shown entries).flatMap row, .last)
  | [], count, n, buffer, hcount => by
    unfold readEntries
    have hnil : (shown []).flatMap row = [] := rfl
    rw [if_neg (by omega), hfails, if_neg (by simp), hnil, List.append_nil]
  | name :: entries, count, n, buffer, hcount => by
    unfold readEntries
    rw [if_neg (by omega), hfails, if_neg (by simp)]
    dsimp only
    by_cases hdot : name = [dot]
    · subst hdot
      rw [shown_dot] at hcount ⊢
      rw [if_pos rfl]
      exact readEntries_last hfails hcount
    · rw [shown_cons hdot, List.length_cons] at hcount
      rw [if_neg hdot, shown_cons hdot, List.flatMap_cons, ← List.append_assoc]
      exact readEntries_last hfails (by omega)

/-- Enough entries are left to fill the batch: the rows that fit, and the stream behind them, which the next
call goes on with. -/
theorem readEntries_full (hfails : ∀ n, fails n = false) : ∀ {entries : List Bytes} {count n : Nat}
    {buffer : Bytes}, count ≤ reqDirBufferSize → reqDirBufferSize ≤ count + (shown entries).length →
      ∃ rest, readEntries row fails entries count n buffer =
          (buffer ++ ((shown entries).take (reqDirBufferSize - count)).flatMap row, .full rest) ∧
        shown rest = (shown entries).drop (reqDirBufferSize - count)
  | entries, count, n, buffer, hcount, hfull => by
    unfold readEntries
    by_cases hroom : count ≥ reqDirBufferSize
    · have hnone : reqDirBufferSize - count = 0 := by omega
      rw [if_pos hroom, hnone]
      refine ⟨entries, ?_, rfl⟩
      rw [List.take_zero, List.flatMap_nil, List.append_nil]
    rw [if_neg hroom, hfails, if_neg (by simp)]
    match entries with
    | [] =>
      have hnil : (shown []).length = 0 := rfl
      omega
    | name :: entries =>
      dsimp only
      by_cases hdot : name = [dot]
      · subst hdot
        rw [shown_dot] at hfull ⊢
        rw [if_pos rfl]
        exact readEntries_full hfails hcount hfull
      · have hone : reqDirBufferSize - count = (reqDirBufferSize - (count + 1)) + 1 := by omega
        rw [shown_cons hdot, List.length_cons] at hfull
        rw [if_neg hdot, shown_cons hdot, hone, List.take_succ_cons, List.drop_succ_cons,
          List.flatMap_cons, ← List.append_assoc]
        exact readEntries_full hfails (by omega) (by omega)

end Batches

/-! ## The calls -/

/-- The directory is open, a part of its entries is left to read, and nothing waits in the body. -/
structure Lists (h : Handler) (entries : List Bytes) : Prop where
  isDirFormat : h.request.path.isDirFormat = true
  directory : h.request.directory = some entries
  body : h.context.response.body = []
  workOut : h.context.requestState.workOut = false

/-- So it is once `_openDir` has opened it and the head is in `responseBuffer`. -/
theorem lists_render {sys : Sys} {h : Handler} {entries : List Bytes} (c : Client)
    (hdir : h.request.path.isDirFormat = true) (hout : h.context.requestState.workOut = false)
    (hopen : opendir sys h.context.world.fs h.request.path.str = some entries) :
    Lists ⟨(c.withHandler (openDirGET sys h)).render.context, (openDirGET sys h).request⟩ entries := by
  have hlisting : openDirGET sys h =
      ((({ h with request := { h.request with directory := some entries } }).setStatusCode
        statusOk).setHeader headerContentType (bytes "text/html")).setBody (indexof h.context.target) := by
    unfold openDirGET
    rw [hopen]
    rfl
  rw [hlisting]
  exact ⟨hdir, rfl, rfl, hout⟩

/-- A call of `workOut`: the answers of the kernel, and the handler that the call finds. -/
structure DirCall where
  sys : Sys
  handler : Handler

namespace DirCall

variable (c : DirCall)

/-- The handler after the call. -/
def after : Handler := (workOutGET c.sys c.handler).2

/-- `WORK_OUT` is set after the call. -/
def setsWorkOut : Bool := c.after.context.requestState.isWorkOutComplete

/-- The bytes that the call puts behind those in `responseBuffer`. -/
def appended : Bytes := c.after.context.responseBuffer.drop c.handler.context.responseBuffer.length

/-- The row of an entry, with the file system as the call finds it. -/
def row (name : Bytes) : Bytes := entryRow c.sys c.handler name

/-- In the call `readdir` comes to the end of the stream. -/
def ReachesEnd : Prop :=
  ∃ entries buffer, c.handler.request.directory = some entries ∧
    readEntries c.row c.sys.readdirFails entries 0 0 [] = (buffer, .last)

end DirCall

/-- What comes before a call: the answers of the kernel for it, the world as it is by then, and what the
client has left in `responseBuffer`. -/
structure Turn where
  sys : Sys
  world : World
  responseBuffer : Bytes

/-- The handler that the call finds.  Between two calls only the world and the waiting bytes change. -/
def resume (h : Handler) (t : Turn) : Handler :=
  { h with context := { h.context with world := t.world, responseBuffer := t.responseBuffer } }

/-- The successive calls, one a turn, until `WORK_OUT` is set. -/
def dirCalls : Handler → List Turn → List DirCall
  | _, [] => []
  | h, t :: turns =>
    let c : DirCall := ⟨t.sys, h.resume t⟩
    c :: if c.setsWorkOut then [] else dirCalls c.after turns

theorem Lists.resume {h : Handler} {entries : List Bytes} (hlists : h.Lists entries) (t : Turn) :
    (h.resume t).Lists entries :=
  ⟨hlists.isDirFormat, hlists.directory, hlists.body, hlists.workOut⟩

section OneCall

variable {c : DirCall} {entries : List Bytes}

theorem DirCall.after_eq_readDir (hlists : c.handler.Lists entries) :
    c.after = (readDir c.sys c.handler).2 := by
  unfold DirCall.after workOutGET
  rw [if_neg (Path.not_isFileFormat hlists.isDirFormat), if_pos hlists.isDirFormat]

/-- The last call: the rows that are left and the footer. -/
theorem DirCall.after_last (hlists : c.handler.Lists entries)
    (hfails : ∀ n, c.sys.readdirFails n = false) (hlast : (shown entries).length < reqDirBufferSize) :
    c.appended = cstr ((shown entries).flatMap c.row ++ htmlFooter) ∧ c.setsWorkOut = true ∧
      c.ReachesEnd := by
  have hbatch : readEntries c.row c.sys.readdirFails entries 0 0 [] =
      ((shown entries).flatMap c.row, .last) := readEntries_last hfails (by omega)
  have hafter := DirCall.after_eq_readDir hlists
  unfold readDir at hafter
  rw [hlists.directory] at hafter
  dsimp only at hafter
  rw [show entryRow c.sys c.handler = c.row from rfl, hbatch] at hafter
  dsimp only at hafter
  refine ⟨?_, ?_, entries, _, hlists.directory, hbatch⟩
  · unfold DirCall.appended
    rw [hafter]
    show (c.handler.context.responseBuffer ++
      cstr (c.handler.context.response.body ++ (shown entries).flatMap c.row ++ htmlFooter)).drop _ = _
    rw [List.drop_left, hlists.body, List.nil_append]
  · unfold DirCall.setsWorkOut
    rw [hafter]
    rfl

/-- A call before the last one: a batch of rows, and the other entries stay. -/
theorem DirCall.after_full (hlists : c.handler.Lists entries)
    (hfails : ∀ n, c.sys.readdirFails n = false) (hfull : reqDirBufferSize ≤ (shown entries).length) :
    ∃ rest, shown rest = (shown entries).drop reqDirBufferSize ∧ c.after.Lists rest ∧
      c.appended = cstr (((shown entries).take reqDirBufferSize).flatMap c.row) ∧
      c.setsWorkOut = false ∧ ¬ c.ReachesEnd ∧ c.after.rowBase = c.handler.rowBase := by
  obtain ⟨rest, hbatch, hrest⟩ := @readEntries_full c.row _ hfails entries 0 0 [] (by omega) (by omega)
  rw [Nat.sub_zero] at hbatch hrest
  have hafter := DirCall.after_eq_readDir hlists
  unfold readDir at hafter
  rw [hlists.directory] at hafter
  dsimp only at hafter
  rw [show entryRow c.sys c.handler = c.row from rfl, hbatch] at hafter
  dsimp only at hafter
  refine ⟨rest, hrest, ?_, ?_, ?_, ?_, ?_⟩
  · rw [hafter]
    exact ⟨hlists.isDirFormat, rfl, rfl, hlists.workOut⟩
  · unfold DirCall.appended
    rw [hafter]
    show (c.handler.context.responseBuffer ++ cstr (c.handler.context.response.body ++
      ([] ++ ((shown entries).take reqDirBufferSize).flatMap c.row))).drop _ = _
    rw [List.drop_left, hlists.body, List.nil_append, List.nil_append]
  · unfold DirCall.setsWorkOut
    rw [hafter]
    exact hlists.workOut
  · rintro ⟨entries', buffer, hentries, hend⟩
    rw [hlists.directory] at hentries
    cases hentries
    rw [hbatch] at hend
    cases hend
  · rw [hafter]
    rfl

/-- What a call appends is a C string. -/
theorem DirCall.zero_not_mem_appended (hlists : c.handler.Lists entries)
    (hfails : ∀ n, c.sys.readdirFails n = false) : (0 : Byte) ∉ c.appended := by
  by_cases hlast : (shown entries).length < reqDirBufferSize
  · rw [(DirCall.after_last hlists hfails hlast).1]
    exact zero_not_mem_cstr _
  · obtain ⟨_, _, _, happended, _⟩ := DirCall.after_full hlists hfails (by omega)
    rw [happended]
    exact zero_not_mem_cstr _

/-- `WORK_OUT` is set by the call that comes to the end. -/
theorem DirCall.setsWorkOut_iff (hlists : c.handler.Lists entries)
    (hfails : ∀ n, c.sys.readdirFails n = false) : c.setsWorkOut = true ↔ c.ReachesEnd := by
  by_cases hlast : (shown entries).length < reqDirBufferSize
  · obtain ⟨_, hsets, hend⟩ := DirCall.after_last hlists hfails hlast
    exact iff_of_true hsets hend
  · obtain ⟨_, _, _, _, hsets, hend, _⟩ := DirCall.after_full hlists hfails (by omega)
    rw [hsets]
    exact iff_of_false (by simp) hend

end OneCall

/-! ## The whole listing -/

/-- No `readdir` fails, and the text of a time is a C string. -/
structure Turn.Quiet (t : Turn) : Prop where
  readdir : ∀ n, t.sys.readdirFails n = false
  strftime : ∀ time, (0 : Byte) ∉ t.sys.strftime time

/-- The calls list the entries: the rows of those that have one, once each and in order, then the footer;
`WORK_OUT` is set by the call that comes to the end, and there is one. -/
structure IsListing (calls : List DirCall) (entries : List Bytes) : Prop where
  rows : ∃ rows, List.Forall₂ (fun name row => ∃ c ∈ calls, row = c.row name) (shown entries) rows ∧
    calls.flatMap DirCall.appended = rows.flatten ++ htmlFooter
  ends : ∀ c ∈ calls, c.setsWorkOut = true ↔ c.ReachesEnd
  ended : ∃ c ∈ calls, c.setsWorkOut = true

/-- Every call finds a part of the listing to do. -/
theorem lists_of_mem_dirCalls {c : DirCall} : ∀ {turns : List Turn} {h : Handler} {entries : List Bytes},
    h.Lists entries → (∀ t ∈ turns, t.Quiet) → c ∈ dirCalls h turns →
      ∃ t ∈ turns, ∃ rest, c.sys = t.sys ∧ c.handler.Lists rest ∧ c.handler.rowBase = h.rowBase
  | [], _, _, _, _, hmem => absurd hmem List.not_mem_nil
  | t :: turns, h, entries, hlists, hquiet, hmem => by
    let first : DirCall := ⟨t.sys, h.resume t⟩
    have hfirst : first.handler.Lists entries := hlists.resume t
    have hreaddir := (hquiet t List.mem_cons_self).readdir
    rcases List.mem_cons.mp hmem with rfl | hmem
    · exact ⟨t, List.mem_cons_self, entries, rfl, hfirst, rfl⟩
    by_cases hlast : (shown entries).length < reqDirBufferSize
    · rw [if_pos (DirCall.after_last hfirst hreaddir hlast).2.1] at hmem
      exact absurd hmem List.not_mem_nil
    · obtain ⟨rest, _, hafter, _, hsets, _, hbase⟩ :=
        DirCall.after_full hfirst hreaddir (Nat.not_lt.mp hlast)
      rw [if_neg (by rw [hsets]; simp)] at hmem
      obtain ⟨t', ht', rest', hsys, hlists', hbase'⟩ :=
        lists_of_mem_dirCalls hafter (fun t ht => hquiet t (List.mem_cons_of_mem _ ht)) hmem
      exact ⟨t', List.mem_cons_of_mem _ ht', rest', hsys, hlists', hbase'.trans hbase⟩

/-- A full batch takes one call, which is what bounds the number of calls that a listing needs. -/
theorem length_shown_rest {entries rest : List Bytes} {k : Nat}
    (hrest : shown rest = (shown entries).drop reqDirBufferSize)
    (hfull : reqDirBufferSize ≤ (shown entries).length)
    (henough : (shown entries).length / reqDirBufferSize < k + 1) :
    (shown rest).length / reqDirBufferSize < k := by
  rw [hrest, List.length_drop]
  rw [Nat.div_eq_sub_div (by decide) hfull] at henough
  exact Nat.lt_of_succ_lt_succ henough

/-- One call for every full batch and one more are enough. -/
theorem exists_setsWorkOut : ∀ {turns : List Turn} {h : Handler} {entries : List Bytes},
    h.Lists entries → (∀ t ∈ turns, t.Quiet) →
      (shown entries).length / reqDirBufferSize < turns.length →
        ∃ c ∈ dirCalls h turns, c.setsWorkOut = true
  | [], _, _, _, _, henough => absurd henough (Nat.not_lt_zero _)
  | t :: turns, h, entries, hlists, hquiet, henough => by
    let first : DirCall := ⟨t.sys, h.resume t⟩
    have hfirst : first.handler.Lists entries := hlists.resume t
    have hreaddir := (hquiet t List.mem_cons_self).readdir
    by_cases hlast : (shown entries).length < reqDirBufferSize
    · exact ⟨first, List.mem_cons_self, (DirCall.after_last hfirst hreaddir hlast).2.1⟩
    · obtain ⟨rest, hrest, hafter, _, hsets, _⟩ :=
        DirCall.after_full hfirst hreaddir (Nat.not_lt.mp hlast)
      have hless := length_shown_rest hrest (Nat.not_lt.mp hlast) henough
      obtain ⟨c, hc, hc'⟩ :=
        exists_setsWorkOut hafter (fun t ht => hquiet t (List.mem_cons_of_mem _ ht)) hless
      refine ⟨c, List.mem_cons_of_mem _ ?_, hc'⟩
      rw [if_neg (by rw [hsets]; simp)]
      exact hc

/-- Rows without NUL go out whole.  Each of them passes through a C string on its way, which would cut it at
a NUL. -/
theorem cstr_rows {row : Bytes → Bytes} {names : List Bytes} (hrow : ∀ name ∈ names, (0 : Byte) ∉ row name)
    {s : Bytes} (hs : (0 : Byte) ∉ s) : cstr (names.flatMap row ++ s) = (names.map row).flatten ++ s := by
  rw [← List.flatMap_def]
  refine cstr_eq_self fun hzero => ?_
  rcases List.mem_append.mp hzero with hzero | hzero
  · obtain ⟨name, hname, hzero⟩ := List.mem_flatMap.mp hzero
    exact hrow name hname hzero
  · exact hs hzero

theorem forall₂_rows {calls : List DirCall} {c : DirCall} (hc : c ∈ calls) (names : List Bytes) :
    List.Forall₂ (fun name row => ∃ c ∈ calls, row = c.row name) names (names.map c.row) := by
  rw [List.forall₂_map_right_iff, List.forall₂_same]
  exact fun _ _ => ⟨c, hc, rfl⟩

/-- Without a NUL at the start of the rows the calls append them all.  The induction is on the turns, with
the state between two calls as its invariant. -/
theorem rows_dirCalls : ∀ {turns : List Turn} {h : Handler} {entries : List Bytes},
    h.Lists entries → (∀ name ∈ shown entries, (0 : Byte) ∉ name) → (∀ t ∈ turns, t.Quiet) →
      (shown entries).length / reqDirBufferSize < turns.length →
      (∀ name ∈ shown entries, (0 : Byte) ∉ h.rowBase) →
        ∃ rows, List.Forall₂ (fun name row => ∃ c ∈ dirCalls h turns, row = c.row name) (shown entries)
            rows ∧
          (dirCalls h turns).flatMap DirCall.appended = rows.flatten ++ htmlFooter
  | [], _, _, _, _, _, henough, _ => absurd henough (Nat.not_lt_zero _)
  | t :: turns, h, entries, hlists, hnames, hquiet, henough, hbase => by
    let first : DirCall := ⟨t.sys, h.resume t⟩
    have hfirst : first.handler.Lists entries := hlists.resume t
    have hreaddir := (hquiet t List.mem_cons_self).readdir
    have hrow : ∀ name ∈ shown entries, (0 : Byte) ∉ first.row name := fun name hname hzero =>
      hbase name hname ((@zero_mem_entryRow_iff t.sys (h.resume t) name (hnames name hname)
        (hquiet t List.mem_cons_self).strftime).mp hzero)
    by_cases hlast : (shown entries).length < reqDirBufferSize
    · obtain ⟨happended, hsets, _⟩ := DirCall.after_last hfirst hreaddir hlast
      have hcalls : dirCalls h (t :: turns) = [first] := by
        rw [dirCalls, if_pos hsets]
      rw [hcalls]
      refine ⟨(shown entries).map first.row, forall₂_rows List.mem_cons_self _, ?_⟩
      rw [List.flatMap_singleton, happended, cstr_rows hrow zero_not_mem_htmlFooter]
    · obtain ⟨rest, hrest, hafter, happended, hsets, _, hbase'⟩ :=
        DirCall.after_full hfirst hreaddir (Nat.not_lt.mp hlast)
      have hcalls : dirCalls h (t :: turns) = first :: dirCalls first.after turns := by
        rw [dirCalls, if_neg (by rw [hsets]; simp)]
      have hless := length_shown_rest hrest (Nat.not_lt.mp hlast) henough
      have hnames' : ∀ name ∈ shown rest, (0 : Byte) ∉ name := fun name hname =>
        hnames name (List.mem_of_mem_drop (hrest ▸ hname))
      obtain ⟨rows, hrows, hbytes⟩ := rows_dirCalls hafter hnames'
        (fun t ht => hquiet t (List.mem_cons_of_mem _ ht)) hless fun name hname =>
          hbase' ▸ hbase name (List.mem_of_mem_drop (hrest ▸ hname))
      have hlater : List.Forall₂ (fun name row => ∃ c ∈ first :: dirCalls first.after turns, row = c.row name)
          (shown rest) rows := by
        refine hrows.imp ?_
        rintro name row ⟨c, hc, hrow⟩
        exact ⟨c, List.mem_cons_of_mem _ hc, hrow⟩
      have hbatch : ∀ name ∈ (shown entries).take reqDirBufferSize, (0 : Byte) ∉ first.row name :=
        fun name hname => hrow name (List.mem_of_mem_take hname)
      rw [hcalls, ← List.take_append_drop reqDirBufferSize (shown entries), ← hrest]
      refine ⟨((shown entries).take reqDirBufferSize).map first.row ++ rows,
        List.rel_append (forall₂_rows List.mem_cons_self _) hlater, ?_⟩
      have hwhole := cstr_rows hbatch List.not_mem_nil
      rw [List.append_nil, List.append_nil] at hwhole
      rw [List.flatMap_cons, hbytes, happended, hwhole, List.flatten_append, List.append_assoc]

theorem exists_row {R : Bytes → Bytes → Prop} {name : Bytes} : ∀ {names rows : List Bytes},
    List.Forall₂ R names rows → name ∈ names → ∃ row ∈ rows, R name row
  | _, _, .nil, hmem => absurd hmem List.not_mem_nil
  | _, _, .cons hrow hrows, hmem => by
    rcases List.mem_cons.mp hmem with rfl | hmem
    · exact ⟨_, List.mem_cons_self, hrow⟩
    · obtain ⟨row, hmem', hrow'⟩ := exists_row hrows hmem
      exact ⟨row, List.mem_cons_of_mem _ hmem', hrow'⟩

/-- For every directory stream that is read without an error the calls of `_readDir` list it exactly if it
has no entry with a row, or neither the value of `Host` nor the target has a NUL. -/
theorem isListing_iff {h : Handler} {entries : List Bytes} {turns : List Turn} (hlists : h.Lists entries)
    (hnames : ∀ name ∈ entries, (0 : Byte) ∉ name) (hquiet : ∀ t ∈ turns, t.Quiet)
    (henough : (shown entries).length / reqDirBufferSize < turns.length) :
    IsListing (dirCalls h turns) entries ↔
      ((∃ name ∈ entries, name ≠ [dot]) → (0 : Byte) ∉ h.rowBase) := by
  have hmem : ∀ name, name ∈ shown entries ↔ name ∈ entries ∧ name ≠ [dot] := fun name => by
    rw [shown, List.mem_filter, decide_eq_true_iff]
  constructor
  · rintro ⟨⟨rows, hrows, hbytes⟩, -, -⟩ ⟨name, hname, hdot⟩ hzero
    obtain ⟨row, hrow, c, hc, rfl⟩ := exists_row hrows ((hmem name).mpr ⟨hname, hdot⟩)
    obtain ⟨t, ht, rest, hsys, -, hbase⟩ := lists_of_mem_dirCalls hlists hquiet hc
    have hnul : (0 : Byte) ∈ c.row name :=
      (zero_mem_entryRow_iff (hnames name hname) (hsys ▸ (hquiet t ht).strftime)).mpr (hbase ▸ hzero)
    have hall : (0 : Byte) ∈ (dirCalls h turns).flatMap DirCall.appended := by
      rw [hbytes]
      exact List.mem_append_left _ (List.mem_flatten.mpr ⟨_, hrow, hnul⟩)
    -- but every call appends a C string
    obtain ⟨c', hc', hzero'⟩ := List.mem_flatMap.mp hall
    obtain ⟨t', ht', rest', hsys', hlists', -⟩ := lists_of_mem_dirCalls hlists hquiet hc'
    exact DirCall.zero_not_mem_appended hlists' (hsys' ▸ (hquiet t' ht').readdir) hzero'
  · intro hbase
    refine ⟨rows_dirCalls hlists (fun name hname => hnames name ((hmem name).mp hname).1) hquiet henough
      fun name hname => hbase ⟨name, (hmem name).mp hname⟩, fun c hc => ?_,
      exists_setsWorkOut hlists hquiet henough⟩
    obtain ⟨t, ht, rest, hsys, hlists', -⟩ := lists_of_mem_dirCalls hlists hquiet hc
    exact DirCall.setsWorkOut_iff hlists' (hsys ▸ (hquiet t ht).readdir)

/-- A directory that is open, with the request's `Host`. -/
def openListing (host : Bytes) (entries : List Bytes) : Handler where
  context := {
    server := Server.single 3 {} fun _ => 0
    headers := OrderedMap.empty.insert headerHost host
    target := bytes "/"
    world := { fs := { table := fun _ => none } } }
  request := { kind := .get, path := Path.ofString (bytes "/r/"), cgiPath := none, directory := some entries }

/-- A turn in which nothing happens. -/
def quietTurn : Turn := ⟨Sys.quiet 0, { fs := { table := fun _ => none } }, []⟩

theorem quietTurn_quiet : ∀ t ∈ [quietTurn], t.Quiet := by
  intro t ht
  obtain rfl := List.mem_singleton.mp ht
  exact ⟨fun _ => rfl, fun _ => List.not_mem_nil⟩

theorem lists_openListing (host : Bytes) (entries : List Bytes) :
    (openListing host entries).Lists entries := by
  have hdir : (Path.ofString (bytes "/r/")).isDirFormat = true := by decide
  exact ⟨hdir, rfl, rfl, rfl⟩

/-- Two names, and the entry without a row. -/
theorem isListing_iff_names :
    IsListing (dirCalls (openListing (bytes "h") [[dot], bytes "a", bytes "b"]) [quietTurn])
        [[dot], bytes "a", bytes "b"] ↔
      ((∃ name ∈ [[dot], bytes "a", bytes "b"], name ≠ [dot]) →
        (0 : Byte) ∉ (openListing (bytes "h") [[dot], bytes "a", bytes "b"]).rowBase) :=
  isListing_iff (lists_openListing _ _) (by decide) quietTurn_quiet (by decide)

/-- `Host: a\0b`: the only row ends at the NUL, and the footer is lost. -/
theorem not_isListing : ¬ ∀ (h : Handler) (entries : List Bytes) (turns : List Turn), h.Lists entries →
    (∀ name ∈ entries, (0 : Byte) ∉ name) → (∀ t ∈ turns, t.Quiet) →
      (shown entries).length / reqDirBufferSize < turns.length →
        IsListing (dirCalls h turns) entries := by
  intro hall
  obtain ⟨⟨rows, -, hbytes⟩, -, -⟩ := hall (openListing [97, 0, 98] [bytes "a"]) [bytes "a"] [quietTurn]
    (lists_openListing _ _) (by decide) quietTurn_quiet (by decide)
  have hfooter : htmlFooter <:+
      (dirCalls (openListing [97, 0, 98] [bytes "a"]) [quietTurn]).flatMap DirCall.appended :=
    ⟨rows.flatten, hbytes.symm⟩
  exact absurd hfooter (by decide +kernel)

end Handler
end Webserv
