import Webserv.Client
import Webserv.HeadAgreement

/-!
# The size that is announced

GET, HEAD and the custom error pages put the size of a file in `Content-Length`.  `Path::size` is a `long`
and `ft::numToStr` takes an `int`, so that the size is narrowed on its way.

* `AnnouncesSize`: the places where the size of a file is announced.
* `AnnouncesSize.find?_eq`: what each of them writes.
* `announcesSize_iff`: the sizes that are announced as they are.

## Why three places are one relation

The size comes from `stat`, in each place with the same call and the same narrowing, but into different
responses: that of GET for the file it has opened, that of HEAD for the file it has found, and that of an
error, whose page may be a file of the configuration.  `AnnouncesSize` says of a path and a response that
the one was announced in the other, with a constructor for each place that repeats what the source asks for
there.  The theorem is then about the relation.  A fourth place would be a fourth constructor, and only
`find?_eq` would have a case more.

## What a wrong size does

A size of 2^31 or more comes out as another number, negative for the first 2^31 of them and then small
again.  GET still sends the whole body.  A peer that believes the header takes the rest of the body for the
next response, or refuses the response altogether.  The bound is exact, as `toInt32` leaves a number alone
only inside its range, and two numbers with the same digits are the same.
-/

namespace Webserv

/-! ## Where a size is announced -/

/-- The response that announces the size of a file: of GET for the file that it opens, of HEAD for the file
that it finds, and of an error for its custom page. -/
inductive AnnouncesSize (sys : Sys) : Path → Response → Prop where
  | get {h : Handler} {file : Path} (hcgi : h.request.cgiPath = none) (hinput : h.request.input = {})
      (hfind : find sys h.context.world.fs h.rule h.request.path = .file file)
      (hopen : (Found.file file).Opens sys h.context.world.fs) :
      AnnouncesSize sys file (Handler.processingGET sys h).context.response
  | head {h : Handler} {file : Path}
      (hfind : find sys h.context.world.fs h.rule h.request.path = .file file) :
      AnnouncesSize sys file (Handler.processingHEAD sys h).context.response
  | errorPage {c : Client} {file : Path} (hpage : c.customErrorPage sys = some file)
      (hopen : (c.openErrorPage sys).1 = true) :
      AnnouncesSize sys file (c.openErrorPage sys).2.context.response

/-- The headers of a file: its size is under `Content-Length`, whatever was there before. -/
theorem find?_setFileHeaders (h : Handler) :
    h.setFileHeaders.context.response.headers.find? headerContentLength =
      some (numToStr (toInt32 h.request.path.size)) :=
  OrderedMap.find?_insert_self ..

/-- Every place writes the size as an `int`: the number that is left of a `long`. -/
theorem AnnouncesSize.find?_eq {sys : Sys} {file : Path} {r : Response} (h : AnnouncesSize sys file r) :
    r.headers.find? headerContentLength = some (numToStr (toInt32 file.size)) := by
  cases h with
  | @get h file hcgi hinput hfind hopen =>
    rw [Handler.response_processingGET, hfind, Handler.respond_serveGET_file hcgi hinput hopen]
    exact find?_setFileHeaders (h.setPath file)
  | @head h file hfind =>
    rw [Handler.response_processingHEAD, hfind]
    exact find?_setFileHeaders (h.setPath file)
  | @errorPage c file hpage hopen =>
    unfold Client.openErrorPage at hopen ⊢
    rw [hpage] at hopen ⊢
    dsimp only at hopen ⊢
    split_ifs at hopen ⊢
    exact OrderedMap.find?_insert_self ..

theorem toInt32_eq_natCast_iff {s : Nat} : toInt32 s = s ↔ s < 2 ^ 31 := by
  constructor
  · intro h
    have hle := toInt32_le s
    unfold int32Max at hle
    omega
  · intro h
    exact toInt32_of_range (by omega) (by unfold int32Max; omega)

/-- **The announced size.**  GET, HEAD and the custom error pages announce the size of a file as it is, if
and only if it is below `2 ^ 31`. -/
theorem announcesSize_iff {sys : Sys} {file : Path} {r : Response} (h : AnnouncesSize sys file r) {s : Nat}
    (hs : file.size = s) :
    r.headers.find? headerContentLength = some (decimal s) ↔ s < 2 ^ 31 := by
  rw [h.find?_eq, Option.some.injEq, numToStr_eq_decimal_iff, hs, toInt32_eq_natCast_iff]

/-- A file system with one file. -/
def sizeFs (content : Bytes) : FileSystem :=
  { table := fun path => if path = bytes "/r/f" then some { kind := .regular content } else none }

/-- The file, once `stat` was called. -/
def sizedFile (content : Bytes) : Path :=
  { Path.ofString (bytes "/r/f") with st := some (Node.stat { kind := .regular content }) }

/-- A request for the file. -/
def sizeHandler (kind : RequestKind) (content : Bytes) : Handler where
  context := {
    server := .single 3 {} fun _ => 0
    ruleBlock := some { path := Path.ofString (bytes "/"), root := Path.ofString (bytes "/r/") }
    target := bytes "/f"
    world := { fs := sizeFs content } }
  request := { kind := kind, path := Path.ofString (bytes "/r/f"), cgiPath := none }

/-- A client whose request was not found, with the file as the page of the error. -/
def sizeClient (content : Bytes) : Client where
  connectSocket := 3
  fd := 4
  timestamp := fun _ => timeMax
  context := {
    server := .single 3 {} fun _ => 0
    serverBlock := some {
      errorPages := OrderedMap.empty.insert statusNotFound (Path.ofString (bytes "/r/f")) }
    response := Response.init.setStatusCode statusNotFound
    world := { fs := sizeFs content } }

theorem announcesSize_get (content : Bytes) : AnnouncesSize (.quiet 0) (sizedFile content)
    (Handler.processingGET (.quiet 0) (sizeHandler .get content)).context.response :=
  .get rfl rfl rfl rfl

theorem announcesSize_head (content : Bytes) : AnnouncesSize (.quiet 0) (sizedFile content)
    (Handler.processingHEAD (.quiet 0) (sizeHandler .head content)).context.response :=
  .head rfl

theorem announcesSize_errorPage (content : Bytes) : AnnouncesSize (.quiet 0) (sizedFile content)
    ((sizeClient content).openErrorPage (.quiet 0)).2.context.response :=
  .errorPage rfl rfl

/-- A small file. -/
theorem announcesSize_iff_small :
    (Handler.processingGET (.quiet 0) (sizeHandler .get (bytes "abc"))).context.response.headers.find?
        headerContentLength = some (decimal 3) ↔ 3 < 2 ^ 31 :=
  announcesSize_iff (announcesSize_get (bytes "abc")) rfl

/-- The three responses that announce the file. -/
def sizeResponses (content : Bytes) : List Response :=
  [(Handler.processingGET (.quiet 0) (sizeHandler .get content)).context.response,
    (Handler.processingHEAD (.quiet 0) (sizeHandler .head content)).context.response,
    ((sizeClient content).openErrorPage (.quiet 0)).2.context.response]

theorem find?_sizeResponses {content : Bytes} {s : Nat} (hs : content.length = s) {r : Response}
    (hr : r ∈ sizeResponses content) :
    r.headers.find? headerContentLength = some (numToStr (toInt32 s)) := by
  have hsize : (sizedFile content).size = s := congrArg Nat.cast hs
  rw [← hsize]
  rcases List.mem_cons.mp hr with rfl | hr
  · exact (announcesSize_get content).find?_eq
  · rcases List.mem_cons.mp hr with rfl | hr
    · exact (announcesSize_head content).find?_eq
    · obtain rfl := List.mem_singleton.mp hr
      exact (announcesSize_errorPage content).find?_eq

/-- A file of `2 ^ 31` bytes is announced with a negative number, and a file of five bytes more than `2 ^ 32`
with 5. -/
theorem not_announcesSize :
    (∀ r ∈ sizeResponses (List.replicate (2 ^ 31) 97),
        r.headers.find? headerContentLength = some (bytes "-2147483648") ∧
          r.headers.find? headerContentLength ≠ some (decimal (2 ^ 31))) ∧
      ∀ r ∈ sizeResponses (List.replicate (2 ^ 32 + 5) 97),
        r.headers.find? headerContentLength = some (bytes "5") ∧
          r.headers.find? headerContentLength ≠ some (decimal (2 ^ 32 + 5)) := by
  constructor
  · intro r hr
    rw [find?_sizeResponses List.length_replicate hr]
    exact ⟨rfl, fun heq => absurd (numToStr_eq_decimal_iff.mp (Option.some.inj heq)) (by decide)⟩
  · intro r hr
    rw [find?_sizeResponses List.length_replicate hr]
    exact ⟨rfl, fun heq => absurd (numToStr_eq_decimal_iff.mp (Option.some.inj heq)) (by decide)⟩

end Webserv
