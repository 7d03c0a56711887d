import Webserv.UploadStart

/-!
# What the reader of an upload writes

`_writeChunk` passes the size that it is given to `send`, but to the temporary file it writes
`_contentLength` bytes.  These are the same as long as all the data that is left of the chunk, or of the
body, is in the buffer.  A read that ends right before a byte of data leaves a buffer that holds less, and
the bytes after the buffer are written as well, before the data that is still to come.

* `Reading`, `Loaded`: an upload between two calls of its reader, and before a call.
* `Faithful`: the file is the body exactly when no read ends right before a byte of data.
* `readsOn_readBody`: a call takes an upload from read to read, or to its end.
* `uncreated_readBody`: what an upload to the name of a CGI never comes to.

## Why "right before a byte of data"

A read may end anywhere: inside a size line, before the data of a chunk, inside it or behind it.  With data
of the piece still to come the reader writes too much, also when it has none of it yet.  In terms of the
stream this is a cut whose next byte is payload.  A cut behind the last byte of a chunk does no harm, since
all of it is there, and neither does one inside a line, as the reader waits for the line end.

## Why too much is never made good

What was written too early has a length, namely what is missing of the piece, and the missing bytes are
written again when they come.  So the file is longer than the body from the first such cut on, whatever
comes later, and it is the body exactly when there was none.  This is how the equivalence is proved:
`Reading` keeps the written bytes as the data so far plus something extra, and the extra is empty exactly as
long as no cut was a bad one.
-/

namespace Webserv

open Payload

namespace Handler

/-! ## A call of the reader -/

variable {quiet : Prop} {body : RequestBody} {reads : List Bytes} {h : Handler}

/-- The reader has got `reads`, and waits for more.  The temporary file is left alone by others if
`quiet` holds. -/
inductive Reading (quiet : Prop) (body : RequestBody) (reads : List Bytes) (h : Handler) : Prop where
  | intro {rest : Rest} {done : Bytes} {received future : List (Byte × Bool)}
      (hstands : Stands terminator rest h future) (hfits : Rest.Fits 0 rest h.context.buffer.length)
      (hreceived : raw received = reads.flatten) (hstream : body.marked = received ++ future)
      (hdata : body.data = done ++ rest.body)
      (htally : Tally (Cuts body.marked reads) done h.request.file.written) (htemp : quiet → TempFile h)

/-- The reader is called with the last of `reads`.  There was a cut before it if `cut` holds. -/
inductive Loaded (quiet : Prop) (body : RequestBody) (reads : List Bytes) (h : Handler) : Prop where
  | intro {rest : Rest} {done : Bytes} {received future : List (Byte × Bool)} {cut : Prop}
      (hstands : Stands terminator rest h future)
      (hwaits : rest.isChunked = true → h.context.buffer = [] → ¬ AtPayload future)
      (hreceived : raw received = reads.flatten) (hstream : body.marked = received ++ future)
      (hdata : body.data = done ++ rest.body) (htally : Tally cut done h.request.file.written)
      (hcut : Cuts body.marked reads ↔ cut ∨ AtPayload future) (htemp : quiet → TempFile h)

/-- What was written is the body exactly when there was no cut, and is what the target holds. -/
structure Faithful (quiet : Prop) (body : RequestBody) (reads : List Bytes) (h : Handler) : Prop where
  written : h.request.file.written = body.data ↔ ¬ Cuts body.marked reads
  target : quiet → h.context.world.fs.Holds h.request.path.str h.request.file.written

/-- What a call of the reader comes to: it waits for more with the invariant kept, or it answers, and with
201 the file is known. -/
inductive ReadsOn (quiet : Prop) (body : RequestBody) (reads : List Bytes) (h : Handler) :
    Ret × Handler → Prop where
  | waits {h' : Handler} (hreading : Reading quiet body reads h')
      (hstate : h'.context.requestState = h.context.requestState) :
      ReadsOn quiet body reads h (.reqContinue, h')
  | ends {h' : Handler}
      (hfaithful : h'.context.response.statusCode = statusCreated → Faithful quiet body reads h') :
      ReadsOn quiet body reads h (.reqDone, h')

/-- What follows a prefix of a marked stream. -/
theorem cuts_concat_of_append {s received future : List (Byte × Bool)} {xs : List Bytes} {x : Bytes}
    (hreceived : raw received = (xs ++ [x]).flatten) (hstream : s = received ++ future) :
    Cuts s (xs ++ [x]) ↔ Cuts s xs ∨ AtPayload future := by
  have hlength := congrArg List.length hreceived
  rw [length_raw] at hlength
  rw [cuts_concat, ← hlength, hstream, List.drop_left]

/-- More bytes of the body arrive.  They are appended to the unread ones, and the reader has not seen them
yet. -/
theorem Reading.load (hreading : Reading quiet body reads h) {x : Bytes} (hne : x ≠ [])
    (hlength : x.length ≤ reqBufferSize) ( hprefix : (reads ++ [x]).flatten <+: body.stream) :
    Loaded quiet body (reads ++ [x]) ⟨h.context.more x, h.request⟩ := by
  cases hreading with
  | @intro rest done received future hstands hfits hreceived hstream hdata htally htemp =>
    obtain ⟨t, ht⟩ := hprefix
    have hflatten : (reads ++ [x]).flatten = reads.flatten ++ x := by simp
    rw [hflatten, ← body.raw_marked, hstream, raw_append, hreceived, List.append_assoc] at ht
    obtain ⟨q, future', rfl, hq, -⟩ := List.map_eq_append_iff.mp (List.append_cancel_left ht).symm
    obtain ⟨p, hp, hmarked⟩ := hstands.stream
    have hraw : raw q = x := hq
    rw [← List.append_assoc] at hstream
    have hreceived' : raw (received ++ q) = (reads ++ [x]).flatten := by
      rw [raw_append, hreceived, hflatten, hraw]
    refine @Loaded.intro _ _ _ _ rest done (received ++ q) future' _
      { hstands with stream := ⟨p ++ q, ?_, ?_⟩, fits := ?_ } (fun _ hnil => ?_) hreceived' hstream hdata
      htally (cuts_concat_of_append hreceived' hstream) htemp
    · rw [raw_append, hp, hraw]
      rfl
    · rw [hmarked, List.append_assoc]
    · show Rest.Fits reqBufferSize rest (h.context.buffer ++ x).length
      rw [List.length_append, ← Nat.zero_add reqBufferSize]
      exact hfits.add hlength
    · exact absurd (List.append_eq_nil_iff.mp hnil).2 hne

/-- **A call of the reader** of an upload: it reads on, or it answers; and what it has written is known by
where its reads were cut. -/
theorem readsOn_readBody (sys : Sys) (hloaded : Loaded quiet body reads h) :
    ReadsOn quiet body reads h (readBody sys h) := by
  cases hloaded with
  | @intro rest done received future cut hstands hwaits hreceived hstream hdata htally hcut htemp =>
    have hcall := callWrites_readBody sys hstands hwaits
    generalize readBody sys h = r at hcall ⊢
    cases hcall with
    | @waits rest' h' done' extra hstands' hfits hbody hwrites hextra =>
      refine .waits (@Reading.intro _ _ _ _ rest' (done ++ done') received future hstands' hfits hreceived
        hstream ?_ ?_ fun hquiet => hwrites.tempFile (htemp hquiet)) hwrites.requestState
      · rw [hdata, hbody, List.append_assoc]
      · have hcut' : cut ∨ extra ≠ [] ↔ Cuts body.marked reads := by
          rw [hcut, ne_eq, hextra, not_not]
        rw [hwrites.written]
        exact (htally.append done' extra).congr hcut'
    | @ends h' hfuture hwrites =>
      -- no data is to come, so nothing more than data is written
      have hcut' : cut ∨ ([] : Bytes) ≠ [] ↔ Cuts body.marked reads := by
        rw [hcut, iff_false_intro (not_atPayload_of_payload hfuture)]
        simp
      have hfile : (publish sys h'.closeFile).request = h'.closeFile.request := request_publish sys _
      refine .ends fun hcreated => ⟨?_, fun hquiet => ?_⟩
      · have htally' := (htally.append rest.body []).congr hcut'
        rw [List.append_nil, ← hdata, ← hwrites.written] at htally'
        show (publish sys h'.closeFile).request.file.written = body.data ↔ _
        rw [hfile]
        exact htally'.eq_iff
      · have htemp' : TempFile h'.closeFile := hwrites.tempFile (htemp hquiet)
        show (publish sys h'.closeFile).context.world.fs.Holds
          (publish sys h'.closeFile).request.path.str (publish sys h'.closeFile).request.file.written
        rw [hfile]
        exact publish_created sys htemp' hcreated
    | refuses hcode => exact .ends fun hcreated => absurd hcreated hcode

/-- An upload is started with the bytes that came with its head. -/
theorem Begins.load {rest : Rest} {p future : List (Byte × Bool)} (hbegins : Begins body rest h future)
    (hbuffer : raw p = h.context.buffer) (hstream : body.marked = p ++ future) :
    Loaded quiet body [h.context.buffer] h := by
  have hreceived : raw p = ([] ++ [h.context.buffer]).flatten := by simpa using hbuffer
  refine @Loaded.intro _ _ _ _ rest [] p future False hbegins.stands hbegins.waits hreceived hstream
    hbegins.data.symm ?_ (cuts_concat_of_append hreceived hstream) fun _ => hbegins.tempFile
  rw [hbegins.written]
  exact Tally.nil

/-! ## The status while a body is read -/

/-- Without a CGI a reader that goes on waiting has set no status. -/
theorem readerRule_pending (sys : Sys) :
    ReaderRule sys
      (fun h => h.request.cgiPath = none ∧ h.context.response.statusCode ≠ statusCreated)
      fun r => r.1 = .reqContinue → r.2.context.response.statusCode ≠ statusCreated where
  waits hI _ := hI.2
  buffer _ hI := hI
  counters _ _ hI := hI
  refuses := by
    rintro h ret code (rfl | rfl) ⟨hfile, -⟩ hcontinue
    · cases hcontinue
    · have hret : h.bodyRet = .reqContinue := hcontinue
      rw [bodyRet, hfile] at hret
      cases hret
  writes := by
    rintro h h' ret size ⟨hfile, hpending⟩ hwrite -
    rw [writeChunk_of_file sys hfile] at hwrite
    cases hwrite
    unfold writeFile
    split_ifs <;> exact ⟨hfile, hpending⟩
  writeFails := by
    rintro h h' size ⟨hfile, -⟩ hwrite
    rw [writeChunk_of_file sys hfile] at hwrite
    cases hwrite
  saves := by
    rintro h h' ret ⟨hfile, -⟩ hsave - hcontinue
    rw [saveFile_of_file sys hfile] at hsave
    cases hsave
    rw [bodyRet_publish sys hfile] at hcontinue
    cases hcontinue
  saveFails := by
    rintro h h' fault ⟨hfile, -⟩ hsave
    rw [saveFile_of_file sys hfile] at hsave
    cases hsave

/-- An upload to the name of a CGI gets no 201 with an error, as the only 201 is that of a save to a file. -/
theorem readerRule_uncreated (sys : Sys) :
    ReaderRule sys
      (fun h => h.request.cgiPath.isSome = true ∧ h.context.response.statusCode ≠ statusCreated)
      fun r => r.1 ≠ .reqContinue → r.1 ≠ .reqDone →
        r.2.context.response.statusCode ≠ statusCreated where
  waits hI _ _ := hI.2
  buffer _ hI := hI
  counters _ _ hI := hI
  refuses := by
    rintro h ret code hret - hcontinue hdone
    rcases hret with rfl | rfl
    · exact absurd rfl hdone
    · exact ((bodyRet_cases h).elim hcontinue hdone).elim
  writes := by
    rintro h h' ret size ⟨hcgi, hpending⟩ hwrite -
    obtain ⟨path, hpath⟩ := Option.isSome_iff_exists.mp hcgi
    rw [writeChunk, hpath] at hwrite
    unfold sendCGI at hwrite
    dsimp only at hwrite
    split at hwrite <;> cases hwrite <;> exact ⟨hcgi, hpending⟩
  writeFails := by
    rintro h h' size ⟨hcgi, hpending⟩ hwrite - -
    obtain ⟨path, hpath⟩ := Option.isSome_iff_exists.mp hcgi
    rw [writeChunk, hpath] at hwrite
    unfold sendCGI at hwrite
    dsimp only at hwrite
    split at hwrite <;> cases hwrite
    exact hpending
  saves := by
    rintro h h' ret - - - hcontinue hdone
    exact ((bodyRet_cases h'.endBody).elim hcontinue hdone).elim
  saveFails := by
    rintro h h' fault ⟨hcgi, -⟩ hsave - -
    obtain ⟨path, hpath⟩ := Option.isSome_iff_exists.mp hcgi
    rw [saveFile, hpath] at hsave
    dsimp only at hsave
    split_ifs at hsave <;> cases hsave
    exact (show statusOk ≠ statusCreated by decide)

theorem sizeVerdict_ne_created (h : Handler) (buffer : Bytes) :
    h.sizeVerdict buffer ≠ .refuses statusCreated := by
  unfold sizeVerdict
  cases BinaryBuffer.find buffer crlf with
  | none => simp
  | some pos =>
    dsimp only
    split_ifs <;> simp [statusBadRequest, statusPayloadTooLarge, statusCreated]

theorem bodyVerdict_ne_created (h : Handler) : h.bodyVerdict ≠ .refuses statusCreated := by
  unfold bodyVerdict
  dsimp only
  split_ifs
  any_goals exact sizeVerdict_ne_created _ _
  all_goals simp [statusBadRequest, statusCreated]

/-- An upload to the name of a CGI, without a CGI, is never answered with 201. -/
theorem uncreated_readBody (sys : Sys) (hcgi : h.request.cgiPath.isSome = true)
    (hsocket : h.context.cgiSocket = -1) (hpending : h.context.response.statusCode ≠ statusCreated) :
    (readBody sys h).2.context.response.statusCode ≠ statusCreated := by
  by_cases hsink : h.bodyVerdict = .accepts
  · obtain ⟨-, hcontinue, hdone⟩ := spoils_readBody sys hcgi hsocket hsink
    exact (readerRule_uncreated sys).readBody ⟨hcgi, hpending⟩ hcontinue hdone
  · have hsettled := settled_readBody sys hsink
    have hverdict := bodyVerdict_ne_created h
    generalize readBody sys h = r at hsettled ⊢
    generalize h.bodyVerdict = v at hsettled hverdict
    cases hsettled with
    | waits buffer n m => exact hpending
    | refuses code hret buffer n m =>
      intro hcreated
      have hcode : code = statusCreated := hcreated
      exact hverdict (hcode ▸ rfl)

end Handler
end Webserv
