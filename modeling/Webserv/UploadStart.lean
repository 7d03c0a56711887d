import Webserv.CgiRelay
import Webserv.FailedUploads

/-!
# The start of an upload

`processing` of a PUT, or of a POST without a CGI, checks the headers and opens the temporary file.  The
reader then stands at the start of the body, with the bytes that came with the head.

* `processing_ne_created`: no upload is answered with 201 before its body is read.
* `Begins`: what a reader starts from.
* `begins_processing`: the start of an upload that is not refused.

## Why the start is a module

The results about uploads follow a run from the head to the answer, and the point in the middle is where two
descriptions of the state meet.  Up to it the state is that of `processing`: fields, flags and names, and
the file system with a new empty file.  From it on it is a position in a stream of marked bytes.
`begins_processing` goes from the first to the second, with everything that the invariant of the readers
needs: the counter of `_checkHeaders` is the length of the body or that of a stream in chunks, nothing was
written, the temporary file is open and empty, and the unread bytes are the beginning of the stream.

## Why 201 is excluded

The conclusion about an upload begins with its status.  To use it, one has to know that 201 comes from a
save and from nothing else, so every operation before the save has a lemma that it sets another status or
none.
-/

namespace Webserv

open Payload

/-- The file at `path` holds these bytes: the name leads to a regular file with this content. -/
def FileSystem.Holds (fs : FileSystem) (path data : Bytes) : Prop :=
  ∃ n, fs.node (cstr path) = some n ∧ n.kind = .regular data

/-- The framing of a body starts before its data. -/
theorem RequestBody.not_atPayload_chunked (chunks : List HexChunk) :
    ¬ AtPayload (RequestBody.chunked chunks).marked := by
  cases chunks with
  | nil => exact not_atPayload_of_payload (payload_mark_false _)
  | cons c chunks =>
    rw [marked, List.flatMap_cons, HexChunk.marked, List.append_assoc, List.append_assoc]
    exact not_atPayload_mark_append (List.append_ne_nil_of_right_ne_nil _ (show crlf ≠ [] by decide)) _

namespace Handler

/-! ## The start of an upload -/

/-- Neither the checks of the headers nor those of the path answer with 201. -/
theorem checkHeaders_ne_created {h : Handler}
    (hstatus : h.context.response.statusCode ≠ statusCreated) :
    (checkHeaders h).2.context.response.statusCode ≠ statusCreated := by
  unfold checkHeaders
  cases h.context.headers.find? headerContentLength with
  | none =>
    cases h.context.headers.find? headerTransferEncoding with
    | none => exact nofun
    | some coding =>
      dsimp only
      split_ifs
      · exact nofun
      · exact hstatus
  | some value =>
    dsimp only
    split_ifs
    · exact nofun
    · exact nofun
    · exact nofun
    · exact hstatus

theorem openFile_ne_created {sys : Sys} {h : Handler}
    (hstatus : h.context.response.statusCode ≠ statusCreated) :
    (openFile sys h).context.response.statusCode ≠ statusCreated := by
  unfold openFile generateFilename
  dsimp only
  cases tryNames sys h.context.world.fs _ 100 0 with
  | none => exact nofun
  | some tmp =>
    dsimp only
    cases createFile sys h.context.world.fs (Path.ofString tmp).str with
    | none => exact nofun
    | some fs => exact hstatus

theorem upload_ne_created {sys : Sys} {h : Handler}
    (hstatus : h.context.response.statusCode ≠ statusCreated) :
    (upload sys h).context.response.statusCode ≠ statusCreated := by
  unfold upload
  split_ifs
  · exact nofun
  · generalize hpath : h.setPath (uploadPath h.rule h.context.target) = h'
    have hstatus' : h'.context.response.statusCode ≠ statusCreated := by
      rw [← hpath]
      exact hstatus
    unfold checkUpload
    dsimp only
    split_ifs
    · cases h'.request.path.dir.stat sys h'.context.world.fs with
      | none => exact nofun
      | some upload =>
        dsimp only
        split_ifs
        · exact nofun
        · exact nofun
        · exact openFile_ne_created hstatus'
        · exact nofun
    · exact nofun
  · exact nofun

theorem request_checkHeaders (h : Handler) :
    (checkHeaders h).2.request.kind = h.request.kind ∧
      (checkHeaders h).2.request.cgiPath = h.request.cgiPath := by
  have hchecked := checked_checkHeaders h
  generalize checkHeaders h = r at hchecked ⊢
  cases hchecked <;> exact ⟨rfl, rfl⟩

/-- `processing` of an upload whose headers are refused, or not. -/
theorem processing_of_isUpload (sys : Sys) {h : Handler} (hupload : h.request.IsUpload) :
    ((checkHeaders h).1 ≠ .reqContinue ∧ ∃ f, processing sys h = (checkHeaders h).2.setState f) ∨
      (checkHeaders h).1 = .reqContinue ∧
        ∃ f, processing sys h = upload sys ((checkHeaders h).2.setState f) := by
  obtain ⟨-, hcgi⟩ := request_checkHeaders h
  unfold processing
  rcases hupload with hput | ⟨hpost, hnone⟩
  · rw [hput]
    dsimp only
    unfold processingPUT
    generalize checkHeaders h = r
    obtain ⟨ret, h'⟩ := r
    cases ret with
    | reqContinue => exact Or.inr ⟨rfl, id, rfl⟩
    | _ => exact Or.inl ⟨by simp, id, rfl⟩
  · rw [hpost]
    dsimp only
    unfold processingPOST
    rw [hnone] at hcgi
    generalize checkHeaders h = r at hcgi ⊢
    obtain ⟨ret, h'⟩ := r
    cases ret with
    | reqContinue =>
      dsimp only at hcgi ⊢
      rw [hcgi]
      exact Or.inr ⟨rfl, _, rfl⟩
    | _ => exact Or.inl ⟨by simp, _, rfl⟩

theorem processing_ne_created {sys : Sys} {h : Handler} (hupload : h.request.IsUpload)
    (hstatus : h.context.response.statusCode ≠ statusCreated) :
    (processing sys h).context.response.statusCode ≠ statusCreated := by
  have hchecked := checkHeaders_ne_created hstatus
  rcases processing_of_isUpload sys hupload with ⟨-, f, heq⟩ | ⟨-, f, heq⟩ <;> rw [heq]
  · exact hchecked
  · exact upload_ne_created (h := (checkHeaders h).2.setState f) hchecked

/-- An upload opens no socket, and keeps the path of a CGI. -/
theorem cgi_processing (sys : Sys) {h : Handler} (hupload : h.request.IsUpload) :
    (processing sys h).context.cgiSocket = h.context.cgiSocket ∧
      (processing sys h).request.cgiPath = h.request.cgiPath := by
  have hchecked : (checkHeaders h).2.context.cgiSocket = h.context.cgiSocket ∧
      (checkHeaders h).2.request.cgiPath = h.request.cgiPath := by
    have hchecked := checked_checkHeaders h
    generalize checkHeaders h = r at hchecked ⊢
    cases hchecked <;> exact ⟨rfl, rfl⟩
  rcases processing_of_isUpload sys hupload with ⟨-, f, heq⟩ | ⟨-, f, heq⟩ <;> rw [heq]
  · exact hchecked
  · have huploads := uploads_upload sys ((checkHeaders h).2.setState f)
    generalize upload sys ((checkHeaders h).2.setState f) = h' at huploads ⊢
    cases huploads <;> exact hchecked

/-- `processing` makes no upload of another request.  The class is fixed when the object is created. -/
theorem isUpload_of_processing {sys : Sys} {kind : RequestKind} {ctx : RequestContext} {h : Handler}
    (hcreate : createRequest kind ctx = .ok h) (hupload : (processing sys h).request.IsUpload) :
    h.request.IsUpload := by
  have hkind : h.request.kind = .post ∨ h.request.kind = .put := by
    have hcreated : h.request.kind = kind := by
      obtain ⟨chopedTarget, -, rfl⟩ := createRequest_ok hcreate
      rfl
    rw [hcreated, ← (started_processing sys hcreate).kind_eq]
    exact hupload.symm.imp_left And.left
  have hstarts := startsBody_processing sys hkind
  generalize processing sys h = h' at hstarts hupload
  cases hstarts with
  | refused n hcode f => exact hupload
  | @cgi h₁ hpost hcgi hchecked =>
    rw [request_openCGI sys (h₁.setState RequestState.setWorkInComplete)] at hupload
    cases hchecked <;> exact hupload
  | upload f hkind hchecked huploads => exact hkind

/-- The temporary file is created empty. -/
theorem holds_createFile {sys : Sys} {fs fs' : FileSystem} {path : Bytes}
    (hcreate : createFile sys fs path = some fs') : fs'.Holds path [] := by
  unfold createFile at hcreate
  split_ifs at hcreate
  cases hnode : fs.node (cstr path) with
  | none =>
    rw [hnode] at hcreate
    cases hcreate
    exact ⟨_, FileSystem.node_update_self _, rfl⟩
  | some n =>
    rw [hnode] at hcreate
    dsimp only at hcreate
    split at hcreate
    · split_ifs at hcreate
      cases hcreate
      exact ⟨_, FileSystem.node_update_self _, rfl⟩
    · cases hcreate

/-- An upload is started: the reader stands at the start of the body, and the temporary file is open and
empty. -/
structure Begins (body : RequestBody) (rest : Rest) (h : Handler) (future : List (Byte × Bool)) :
    Prop where
  stands : Stands terminator rest h future
  data : rest.body = body.data
  written : h.request.file.written = []
  tempFile : TempFile h
  waits : rest.isChunked = true → h.context.buffer = [] → ¬ AtPayload future

/-- **The start of an upload** that is not refused. -/
theorem begins_processing {kind : RequestKind} {ctx : RequestContext} {sys : Sys} {h : Handler}
    (hcreate : createRequest kind ctx = .ok h) (hupload : h.request.IsUpload)
    (hnone : h.request.cgiPath = none)
    (hpending : (processing sys h).context.response.statusCode = statusNone)
    {body : RequestBody} (hannounced : body.Announced ctx.headers)
    (hlimit : (body.data.length : Int) ≤ ctx.rule.getMaxBodySize)
    (hint : (body.data.length : Int) ≤ int32Max) {p future : List (Byte × Bool)}
    (hbuffer : raw p = ctx.buffer) (hstream : body.marked = p ++ future)
    (hlength : ctx.buffer.length ≤ reqBufferSize) :
    ∃ rest, Begins body rest (processing sys h) future := by
  obtain ⟨chopedTarget, -, hh⟩ := createRequest_ok hcreate
  have hheaders : body.Announced h.context.headers := by
    rw [hh]
    exact hannounced
  have hmax : (body.data.length : Int) ≤ h.maxBodySize := by
    rw [hh]
    exact hlimit
  obtain ⟨chunked, n, hcheck, hframed⟩ := checkHeaders_of_announced hheaders hmax hint
  obtain ⟨rest, hmarked, hdata, hproper, -, hrest⟩ := exists_rest hint
  have hcounters : chunked = rest.isChunked ∧ n = rest.counter := by
    have hfresh : h.request.chunked = false := by rw [hh]
    cases body with
    | content data hne =>
      exact ⟨hframed.1.trans (hfresh.trans hrest.1.symm), hframed.2.trans hrest.2.symm⟩
    | chunked chunks => exact ⟨hframed.1.trans hrest.1.symm, hframed.2.trans hrest.2.symm⟩
  have hwaits : rest.isChunked = true → ctx.buffer = [] → ¬ AtPayload future := by
    intro hchunked hnil
    rw [hnil] at hbuffer
    obtain rfl : p = [] := List.map_eq_nil_iff.mp hbuffer
    rw [List.nil_append] at hstream
    rw [← hstream]
    cases body with
    | content data hne =>
      rw [hrest.1] at hchunked
      cases hchunked
    | chunked chunks => exact RequestBody.not_atPayload_chunked chunks
  rcases processing_of_isUpload sys hupload with ⟨hret, -⟩ | ⟨-, f, heq⟩
  · rw [hcheck] at hret
    exact absurd rfl hret
  rw [hcheck] at heq
  rw [heq] at hpending ⊢
  generalize hh₁ : setState _ f = h₁ at hpending ⊢
  have huploads := uploads_upload sys h₁
  generalize upload sys h₁ = h' at hpending huploads ⊢
  cases huploads with
  | refused path hcode => exact absurd hpending hcode
  | unopened hnamed hcode => exact absurd hpending hcode
  | @opened path tmp fs hnamed hfile =>
    subst hh₁ hh
    refine ⟨rest, ⟨hcounters.1, hcounters.2, ⟨p, hbuffer, hmarked.trans hstream⟩, hproper,
      Rest.fits_of_le _ hlength, rfl, hnone⟩, hdata, rfl, holds_createFile hfile, hwaits⟩

end Handler
end Webserv
