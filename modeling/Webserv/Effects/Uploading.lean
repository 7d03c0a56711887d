import Webserv.Effects.Reading
import Webserv.Lib.Payload

/-!
# What the readers write

Without a CGI the readers write the body to the temporary file.  What is left of a body, from where a reader
stands, is its `Rest`; each call takes the reader from one rest to another.  A call that gets all the data
of the chunk that it is in writes just the data; a call whose bytes end before a byte of data writes
`_contentLength` bytes, more than it has.

* `Chunk`, `LastChunk`: the parts of a chunked body.
* `Stands`: the handler is at a rest of the body, with some bytes of it unread.
* `CallWrites`, `RoundWrites`: what a call of a reader, and a round of its loop, does there.
* `callWrites_readBody`: the two readers do that.

## Why something extra

`write` gets the right pointer and the wrong length.  What is written is the data that is there and then
whatever lies behind the buffer, as many bytes as the piece is still missing.  These are not known, only how
many they are, so the relations carry them as `extra`, next to the data that was written rightly.  A call
writes something extra exactly when its bytes end before a byte of data.

## Why the stream is marked

Whether the next byte is data cannot be seen in the byte.  The stream that a well-formed body is sent as has
every byte marked as payload or framing, and `Stands` says that the unread bytes and the future ones
together are what is left of it.  "The bytes end before a byte of data" is then a property of the future,
`AtPayload`, and the same for both framings.

## Why the end of a chunked body is a parameter

What follows the last size line is a matter between the reader and its table of terminators.  The lemmas
take any `LastChunk`, a line for zero and what comes after it, and say when the reader takes it for the end.
The well-formed one is an instance.
-/

namespace Webserv

open Payload FileSystem

/-! ## Bodies -/

/-- A chunk: its size line, as the reader parses it, and its data. -/
structure Chunk where
  line : Bytes
  data : Bytes
  cr_notMem : cr ∉ line
  size_eq : sToContentLength line true = data.length
  data_ne_nil : data ≠ []

/-- The end of a chunked body: a size line for 0, and what follows it. -/
structure LastChunk where
  line : Bytes
  trailer : Bytes
  cr_notMem : cr ∉ line
  size_eq : sToContentLength line true = 0

/-- A chunk of a stream; its data is payload. -/
def Chunk.marked (c : Chunk) : List (Byte × Bool) :=
  mark false (c.line ++ crlf) ++ (mark true c.data ++ mark false crlf)

/-- A chunked body. -/
def markedChunks (last : LastChunk) (chunks : List Chunk) : List (Byte × Bool) :=
  chunks.flatMap Chunk.marked ++ mark false (last.line ++ crlf ++ last.trailer)

theorem markedChunks_cons (last : LastChunk) (c : Chunk) (chunks : List Chunk) :
    markedChunks last (c :: chunks) = mark false (c.line ++ crlf) ++
      (mark true c.data ++ (mark false crlf ++ markedChunks last chunks)) := by
  rw [markedChunks, List.flatMap_cons, Chunk.marked, markedChunks]
  simp only [List.append_assoc]

/-- What is left of a body: of a body with a length; of a chunked body from a size line on, from
inside the data of a chunk on, and from the end of the data of a chunk on. -/
inductive Rest where
  | content (todo : Bytes)
  | size (chunks : List Chunk)
  | data (todo : Bytes) (chunks : List Chunk)
  | tail (chunks : List Chunk)

namespace Rest

def isChunked : Rest → Bool
  | content _ => false
  | _ => true

/-- `_contentLength` at this point: what is missing of the piece, with -1 for a size line and 0 for the end
of a chunk. -/
def counter : Rest → Int
  | content todo => todo.length
  | size _ => -1
  | data todo _ => todo.length
  | tail _ => 0

/-- The data that is left, in this piece and in the chunks behind it. -/
def body : Rest → Bytes
  | content todo => todo
  | size chunks => chunks.flatMap Chunk.data
  | data todo chunks => todo ++ chunks.flatMap Chunk.data
  | tail chunks => chunks.flatMap Chunk.data

/-- The stream that is left: the data is payload, size lines and line ends are not. -/
def marked (last : LastChunk) : Rest → List (Byte × Bool)
  | content todo => mark true todo
  | size chunks => markedChunks last chunks
  | data todo chunks => mark true todo ++ (mark false crlf ++ markedChunks last chunks)
  | tail chunks => mark false crlf ++ markedChunks last chunks

/-- The reader is inside data: there is some, and its length fits `_contentLength`. -/
def Proper : Rest → Prop
  | content todo => todo ≠ [] ∧ (todo.length : Int) ≤ int32Max
  | data todo _ => todo ≠ [] ∧ (todo.length : Int) ≤ int32Max
  | _ => True

/-- The length of the line that the reader waits for. -/
def slack : Rest → Nat
  | size (c :: _) => c.line.length + 2
  | tail _ => 2
  | _ => 0

/-- At most `n` unread bytes follow the line that the reader waits for, unless it is the last one. -/
def Fits (n : Nat) (rest : Rest) (length : Nat) : Prop :=
  rest = size [] ∨ length ≤ rest.slack + n

theorem fits_of_le (rest : Rest) {n length : Nat} (h : length ≤ n) : Fits n rest length :=
  Or.inr (by omega)

theorem Fits.add {rest : Rest} {n length : Nat} (h : Fits n rest length) {k m : Nat} (hk : k ≤ m) :
    Fits (n + m) rest (length + k) := by
  rcases h with hlast | hle
  · exact Or.inl hlast
  · exact Or.inr (by omega)

theorem payload_marked (last : LastChunk) (rest : Rest) : payload (rest.marked last) = rest.body := by
  have hchunks : ∀ chunks, payload (markedChunks last chunks) = chunks.flatMap Chunk.data := by
    intro chunks
    induction chunks with
    | nil => exact payload_mark_false _
    | cons c chunks ih =>
      rw [markedChunks_cons, List.flatMap_cons]
      simp [ih]
  cases rest with
  | content todo => exact payload_mark_true todo
  | size chunks => exact hchunks chunks
  | data todo chunks => simp [marked, body, hchunks]
  | tail chunks => simp [marked, body, hchunks]

end Rest

namespace Handler

/-! ## Writing -/

/-- The temporary file holds what was written, and nothing else: its name was not taken away. -/
def TempFile (h : Handler) : Prop :=
  ∃ n, h.context.world.fs.node (cstr h.request.tmpFilename.str) = some n ∧
    n.kind = .regular h.request.file.written

/-- More data was written, and nothing else but the buffer and the counters has changed. -/
structure Writes (h h' : Handler) (data : Bytes) : Prop where
  fields : ∃ f, h' = h.withBody f
  requestState : h'.context.requestState = h.context.requestState
  statusCode : h'.context.response.statusCode = h.context.response.statusCode
  isOpen : h'.request.file.isOpen = h.request.file.isOpen
  written : h'.request.file.written = h.request.file.written ++ data
  tempFile : TempFile h → TempFile h'

theorem Writes.of_counters (h : Handler) (buffer : Bytes) (n m : Int) :
    Writes h (h.withCounters buffer n m) [] where
  fields := ⟨{ h.bodyFields with
    buffer := buffer, contentLength := n, contentTotalLength := m }, rfl⟩
  requestState := rfl
  statusCode := rfl
  isOpen := rfl
  written := (List.append_nil _).symm
  tempFile := id

theorem Writes.trans {h₁ h₂ h₃ : Handler} {x y : Bytes} (h₁₂ : Writes h₁ h₂ x)
    (h₂₃ : Writes h₂ h₃ y) : Writes h₁ h₃ (x ++ y) where
  fields := by
    obtain ⟨f, rfl⟩ := h₁₂.fields
    obtain ⟨g, rfl⟩ := h₂₃.fields
    exact ⟨g, rfl⟩
  requestState := h₂₃.requestState.trans h₁₂.requestState
  statusCode := h₂₃.statusCode.trans h₁₂.statusCode
  isOpen := h₂₃.isOpen.trans h₁₂.isOpen
  written := by rw [h₂₃.written, h₁₂.written, List.append_assoc]
  tempFile := h₂₃.tempFile ∘ h₁₂.tempFile

theorem Writes.cgiPath {h h' : Handler} {data : Bytes} (hwrites : Writes h h' data) :
    h'.request.cgiPath = h.request.cgiPath := by
  obtain ⟨f, rfl⟩ := hwrites.fields
  rfl

theorem Writes.chunked {h h' : Handler} {data : Bytes} (hwrites : Writes h h' data) :
    h'.request.chunked = h.request.chunked := by
  obtain ⟨f, rfl⟩ := hwrites.fields
  rfl

/-- The bytes that `write` takes from the buffer, and from the memory after it. -/
theorem writes_writeFile (sys : Sys) {h : Handler} (hopen : h.request.file.isOpen = true) (n : Int) :
    Writes h (writeFile sys h n) (sys.readMemory h.context.buffer n.toNat) ∧
      (writeFile sys h n).context.buffer = h.context.buffer ∧
      (writeFile sys h n).request.contentLength = h.request.contentLength := by
  unfold writeFile
  rw [if_pos hopen]
  refine ⟨⟨⟨{ h.bodyFields with fs := _, file := _ }, rfl⟩, rfl, rfl, rfl, rfl, ?_⟩, rfl, rfl⟩
  rintro ⟨node, hnode, hkind⟩
  have hupdate : h.context.world.fs.append h.request.tmpFilename.str
      (sys.readMemory h.context.buffer n.toNat) = h.context.world.fs.update h.request.tmpFilename.str
        (some { node with kind := .regular (h.request.file.written ++
          sys.readMemory h.context.buffer n.toNat) }) := by
    unfold FileSystem.append
    rw [hnode]
    dsimp only
    rw [hkind]
  refine ⟨{ node with kind := .regular (h.request.file.written ++
    sys.readMemory h.context.buffer n.toNat) }, ?_, rfl⟩
  show (h.context.world.fs.append h.request.tmpFilename.str
    (sys.readMemory h.context.buffer n.toNat)).node (cstr h.request.tmpFilename.str) = _
  rw [hupdate]
  exact if_pos rfl

theorem writeChunk_of_file (sys : Sys) {h : Handler} (hfile : h.request.cgiPath = none)
    (size : Nat) : writeChunk sys h size = (.reqContinue, writeFile sys h h.request.contentLength) := by
  unfold writeChunk
  rw [hfile]

/-- The handler with its temporary file closed, as a save leaves it. -/
def closeFile (h : Handler) : Handler :=
  { h with request := { h.request with file := { h.request.file with isOpen := false } } }

/-! ## Where a reader stands -/

/-- The reader is at a rest of the body, and what will be read is `future`. -/
structure Stands (last : LastChunk) (rest : Rest) (h : Handler) (future : List (Byte × Bool)) :
    Prop where
  chunked : h.request.chunked = rest.isChunked
  counter : h.request.contentLength = rest.counter
  stream : ∃ p, raw p = h.context.buffer ∧ rest.marked last = p ++ future
  proper : rest.Proper
  fits : Rest.Fits reqBufferSize rest h.context.buffer.length
  isOpen : h.request.file.isOpen = true
  cgiPath : h.request.cgiPath = none

/-- What a call of a reader does at a rest of the body: it waits at another rest, it comes to the end
of the body, or it refuses the body.  It writes the data that it gets, and something more if its bytes
end before a byte of data. -/
inductive CallWrites (sys : Sys) (last : LastChunk) (rest : Rest) (h : Handler)
    (future : List (Byte × Bool)) : Ret × Handler → Prop where
  | waits {rest' : Rest} {h' : Handler} {done extra : Bytes} (hstands : Stands last rest' h' future)
      (hfits : Rest.Fits 0 rest' h'.context.buffer.length) (hbody : rest.body = done ++ rest'.body)
      (hwrites : Writes h h' (done ++ extra)) (hextra : extra = [] ↔ ¬ AtPayload future) :
      CallWrites sys last rest h future (.reqContinue, h')
  | ends {h' : Handler} (hfuture : payload future = []) (hwrites : Writes h h' rest.body) :
      CallWrites sys last rest h future (.reqDone, (publish sys h'.closeFile).endBody)
  | refuses {h' : Handler} {code : Nat} (hcode : code ≠ statusCreated) :
      CallWrites sys last rest h future (.reqDone, h'.refuseBody code)

/-- A call goes on from a rest where nothing but data was written. -/
theorem CallWrites.trans {sys : Sys} {last : LastChunk} {rest rest₁ : Rest} {h h₁ : Handler}
    {future : List (Byte × Bool)} {done : Bytes} {r : Ret × Handler}
    (hbody : rest.body = done ++ rest₁.body) (hwrites : Writes h h₁ done)
    (hcall : CallWrites sys last rest₁ h₁ future r) : CallWrites sys last rest h future r := by
  cases hcall with
  | @waits rest' h' done' extra hstands hfits hbody' hwrites' hextra =>
    refine @CallWrites.waits _ _ _ _ _ rest' h' (done ++ done') extra hstands hfits ?_ ?_ hextra
    · rw [hbody, hbody', List.append_assoc]
    · rw [List.append_assoc]
      exact hwrites.trans hwrites'
  | ends hfuture hwrites' =>
    refine .ends hfuture ?_
    rw [hbody]
    exact hwrites.trans hwrites'
  | refuses hcode => exact .refuses hcode

/-! ## The data of a chunk -/

/-- What a round does at a rest of the body.  It leaves a shorter buffer; when something more than data
was written, the buffer is empty. -/
inductive RoundWrites (sys : Sys) (last : LastChunk) (rest : Rest) (h : Handler)
    (future : List (Byte × Bool)) (bound : Nat) : Round → Prop where
  | goesOn {rest₁ : Rest} {h₁ : Handler} {done extra : Bytes} (hstands : Stands last rest₁ h₁ future)
      (hbody : rest.body = done ++ rest₁.body) (hwrites : Writes h h₁ (done ++ extra))
      (hless : h₁.context.buffer.length < bound) (hsilent : h₁.context.buffer ≠ [] → extra = [])
      (hlast : h₁.context.buffer = [] → (extra = [] ↔ ¬ AtPayload future)) :
      RoundWrites sys last rest h future bound (.ok h₁)
  | returns {r : Ret × Handler} (hcall : CallWrites sys last rest h future r) :
      RoundWrites sys last rest h future bound (.error r)

theorem RoundWrites.trans {sys : Sys} {last : LastChunk} {rest rest₁ : Rest} {h h₁ : Handler}
    {future : List (Byte × Bool)} {bound : Nat} {r : Round} (hbody : rest.body = rest₁.body)
    (hwrites : Writes h h₁ []) (hround : RoundWrites sys last rest₁ h₁ future bound r) :
    RoundWrites sys last rest h future bound r := by
  cases hround with
  | goesOn hstands hbody' hwrites' hless hsilent hlast =>
    exact .goesOn hstands (hbody.trans hbody') (hwrites.trans hwrites') hless hsilent hlast
  | returns hcall => exact .returns (hcall.trans hbody hwrites)

/-- The unread bytes end inside the data `todo`, or all of it is there. -/
theorem split_data {todo b : Bytes} {p future s : List (Byte × Bool)} (hraw : raw p = b)
    (hstream : mark true todo ++ s = p ++ future) :
    (∃ todo', todo' ≠ [] ∧ todo = b ++ todo' ∧ future = mark true todo' ++ s) ∨
      ∃ q, b = todo ++ raw q ∧ s = q ++ future := by
  rcases List.append_eq_append_iff.mp hstream with ⟨q, hp, hs⟩ | ⟨q, hmark, hfuture⟩
  · refine Or.inr ⟨q, ?_, hs⟩
    rw [← hraw, hp, raw_append, raw_mark]
  · obtain ⟨-, hq, htodo⟩ := mark_eq_append hmark
    by_cases hnil : raw q = []
    · refine Or.inr ⟨[], ?_, ?_⟩
      · rw [htodo, hraw, hnil, raw_nil, List.append_nil, List.append_nil]
      · rw [hfuture, hq, hnil]
        rfl
    · exact Or.inl ⟨raw q, hnil, by rw [htodo, hraw], by rw [hfuture, ← hq]⟩

/-- More bytes than the data of the chunk: all of it is written, and the end of the chunk comes next. -/
theorem readChunk_of_lt (sys : Sys) {h : Handler} {n : Nat} (hfile : h.request.cgiPath = none)
    (hopen : h.request.file.isOpen = true) (hcounter : h.request.contentLength = n)
    (hn : (n : Int) ≤ int32Max) (hlt : toInt32 h.context.buffer.length > h.request.contentLength) :
    readChunk sys h = .ok ((writeFile sys h n).withCounters (h.context.buffer.drop n) 0
      (writeFile sys h n).request.contentTotalLength) := by
  obtain ⟨-, hbuffer, hlength⟩ := writes_writeFile sys hopen n
  have hsize : toSize (writeFile sys h n).request.contentLength = n := by
    unfold int32Max at hn
    rw [hlength, hcounter, toSize_of_range (by omega) (by omega), Int.toNat_natCast]
  unfold readChunk
  dsimp only
  rw [if_pos hlt, writeChunk_of_file sys hfile, hcounter]
  dsimp only
  rw [hsize, ← hbuffer, ← BinaryBuffer.erase_zero]
  rfl

/-- The unread bytes are counted off. -/
theorem consumeBuffer_writeFile (sys : Sys) {h : Handler} {n : Nat}
    (hopen : h.request.file.isOpen = true) (hcounter : h.request.contentLength = n)
    (hn : (n : Int) ≤ int32Max) (hle : h.context.buffer.length ≤ n) :
    (writeFile sys h n).consumeBuffer = (writeFile sys h n).withCounters []
      ↑(n - h.context.buffer.length) (writeFile sys h n).request.contentTotalLength := by
  obtain ⟨-, hbuffer, hlength⟩ := writes_writeFile sys hopen n
  have hrest : toInt32 ((writeFile sys h n).request.contentLength -
      (writeFile sys h n).context.buffer.length) = ↑(n - h.context.buffer.length) := by
    unfold int32Max at hn
    rw [hbuffer, hlength, hcounter, toInt32_of_range (by omega) (by unfold int32Max; omega)]
    omega
  unfold consumeBuffer
  rw [hrest]
  rfl

/-- At most the data of the chunk. -/
theorem readChunk_of_le (sys : Sys) {h : Handler} {n : Nat} (hfile : h.request.cgiPath = none)
    (hopen : h.request.file.isOpen = true) (hcounter : h.request.contentLength = n)
    (hn : (n : Int) ≤ int32Max) (hle : h.context.buffer.length ≤ n)
    (hnot : ¬ toInt32 h.context.buffer.length > h.request.contentLength) :
    readChunk sys h = .ok ((writeFile sys h n).withCounters [] ↑(n - h.context.buffer.length)
      (writeFile sys h n).request.contentTotalLength) := by
  unfold readChunk
  dsimp only
  rw [if_neg hnot, writeChunk_of_file sys hfile, hcounter]
  dsimp only
  rw [consumeBuffer_writeFile sys hopen hcounter hn hle]
  rfl

/-- The data of a chunk: the bytes end inside it, or the end of the chunk comes next. -/
theorem roundWrites_readChunk (sys : Sys) {last : LastChunk} {todo : Bytes} {chunks : List Chunk}
    {h : Handler} {future : List (Byte × Bool)} {bound : Nat}
    (hstands : Stands last (.data todo chunks) h future) (hpos : 0 < bound)
    (hbound : h.context.buffer.length ≤ bound) :
    RoundWrites sys last (.data todo chunks) h future bound (readChunk sys h) := by
  obtain ⟨p, hraw, hstream⟩ := hstands.stream
  obtain ⟨hne, hint⟩ := hstands.proper
  have hlength : h.context.buffer.length ≤ reqBufferSize := by
    rcases hstands.fits with hlast | hle
    · cases hlast
    · exact hle.trans (by simp [Rest.slack])
  have h32 : toInt32 h.context.buffer.length = h.context.buffer.length := by
    unfold reqBufferSize at hlength
    exact toInt32_of_range (by omega) (by unfold int32Max; omega)
  have hcounter : h.request.contentLength = todo.length := hstands.counter
  obtain ⟨hwrites, -, -⟩ := writes_writeFile sys hstands.isOpen todo.length
  rw [Int.toNat_natCast] at hwrites
  have hframe : ∀ (buffer : Bytes) (n : Int) (rest : Rest), rest.isChunked = true →
      rest.counter = n → (∃ q, raw q = buffer ∧ rest.marked last = q ++ future) → rest.Proper →
      buffer.length ≤ reqBufferSize →
      Stands last rest ((writeFile sys h todo.length).withCounters buffer n
        (writeFile sys h todo.length).request.contentTotalLength) future := by
    intro buffer n rest hchunked hn hsplit hproper hle
    exact ⟨hwrites.chunked.trans (hstands.chunked.trans hchunked.symm), hn.symm, hsplit, hproper,
      rest.fits_of_le hle, hwrites.isOpen.trans hstands.isOpen,
      hwrites.cgiPath.trans hstands.cgiPath⟩
  have hcounters := fun (buffer : Bytes) (n : Int) => hwrites.trans
    (Writes.of_counters (writeFile sys h todo.length) buffer n
      (writeFile sys h todo.length).request.contentTotalLength)
  rcases split_data hraw hstream with ⟨todo', htodo', htodo, hfuture⟩ | ⟨q, hbuffer, hs⟩
  · -- the bytes end inside the data: the rest of the count is written as well
    have hlen : todo.length = h.context.buffer.length + todo'.length := by
      rw [htodo, List.length_append]
    have hpos' := List.length_pos_iff.mpr htodo'
    rw [readChunk_of_le sys hstands.cgiPath hstands.isOpen hcounter hint (by omega)
      (by rw [h32, hcounter]; omega)]
    have hmemory : sys.readMemory h.context.buffer todo.length = h.context.buffer ++
        (List.range (todo.length - h.context.buffer.length)).map sys.overread := by
      rw [Sys.readMemory, List.take_of_length_le (by omega)]
    refine @RoundWrites.goesOn _ _ _ _ _ _ (.data todo' chunks) _ h.context.buffer
      ((List.range (todo.length - h.context.buffer.length)).map sys.overread) ?_ ?_ ?_ hpos ?_ ?_
    · refine hframe [] _ _ rfl ?_ ⟨[], rfl, hfuture.symm⟩ ⟨htodo', by omega⟩ (Nat.zero_le _)
      rw [hlen, Nat.add_sub_cancel_left]
      rfl
    · rw [Rest.body, Rest.body, htodo, List.append_assoc]
    · have hall := hcounters [] ↑(todo.length - h.context.buffer.length)
      rw [hmemory, List.append_nil] at hall
      exact hall
    · exact fun hnil => absurd rfl hnil
    · intro _
      constructor
      · intro hnil
        have := congrArg List.length hnil
        rw [List.length_map, List.length_range, List.length_nil] at this
        omega
      · intro hnot
        rw [hfuture] at hnot
        exact absurd (atPayload_mark_append htodo' _) hnot
  · -- the data is there, and only the data is written
    have hmemory : sys.readMemory h.context.buffer todo.length = todo := by
      rw [Sys.readMemory_of_le _ (by rw [hbuffer, List.length_append]; omega), hbuffer,
        List.take_left]
    rw [hmemory] at hcounters
    have hbody : (Rest.data todo chunks).body = todo ++ (Rest.tail chunks).body := rfl
    have hdrop : h.context.buffer.drop todo.length = raw q := by rw [hbuffer, List.drop_left]
    have hnone : q = [] → ¬ AtPayload future := by
      rintro rfl
      rw [List.nil_append] at hs
      rw [← hs]
      exact not_atPayload_mark_append (List.cons_ne_nil _ _) _
    have hlen : h.context.buffer.length = todo.length + (raw q).length := by
      rw [hbuffer, List.length_append]
    have hgoesOn : ∀ n, n = (0 : Int) → RoundWrites sys last (.data todo chunks) h future bound
        (.ok ((writeFile sys h todo.length).withCounters (raw q) n
          (writeFile sys h todo.length).request.contentTotalLength)) := by
      intro n hn
      refine @RoundWrites.goesOn _ _ _ _ _ _ (.tail chunks) _ todo [] ?_ hbody ?_ ?_ (fun _ => rfl) ?_
      · exact hframe _ _ _ rfl hn.symm ⟨q, rfl, hs⟩ trivial (by omega)
      · exact hcounters (raw q) n
      · show (raw q).length < bound
        have := List.length_pos_iff.mpr hne
        omega
      · intro hnil
        exact ⟨fun _ => hnone (List.map_eq_nil_iff.mp hnil), fun _ => rfl⟩
    by_cases hlt : toInt32 h.context.buffer.length > h.request.contentLength
    · rw [readChunk_of_lt sys hstands.cgiPath hstands.isOpen hcounter hint hlt, hdrop]
      exact hgoesOn 0 rfl
    · have hle : h.context.buffer.length ≤ todo.length := by
        rw [h32, hcounter] at hlt
        omega
      have hnil : raw q = [] := List.eq_nil_of_length_eq_zero (by omega)
      rw [readChunk_of_le sys hstands.cgiPath hstands.isOpen hcounter hint hle hlt]
      have hzero := hgoesOn ↑(todo.length - h.context.buffer.length) (by omega)
      rw [hnil] at hzero
      exact hzero

/-! ## Size lines -/

theorem find_line {line : Bytes} (hcr : cr ∉ line) (rest : Bytes) :
    BinaryBuffer.find (line ++ crlf ++ rest) crlf = some line.length := by
  rw [BinaryBuffer.find_eq_findSub (List.cons_ne_nil _ _), Search.findSub_eq_some_iff]
  refine ⟨?_, ?_, ?_⟩
  · simp only [List.length_append]
    omega
  · rw [List.append_assoc, List.drop_left]
    exact List.prefix_append _ _
  · intro j hj hprefix
    rw [List.append_assoc, List.drop_append_of_le_length (by omega)] at hprefix
    cases hdrop : line.drop j with
    | nil =>
      have := congrArg List.length hdrop
      rw [List.length_drop, List.length_nil] at this
      omega
    | cons a l =>
      rw [hdrop, List.cons_append] at hprefix
      have ha : cr = a := (List.cons_prefix_cons.mp hprefix).1
      refine hcr (List.mem_of_mem_drop (i := j) ?_)
      rw [hdrop, ha]
      exact List.mem_cons_self

/-- A size line is complete, or the bytes end before its end. -/
theorem split_line {line b : Bytes} (hcr : cr ∉ line) {p future s : List (Byte × Bool)}
    (hraw : raw p = b) (hstream : mark false (line ++ crlf) ++ s = p ++ future) :
    (BinaryBuffer.find b crlf = none ∧ b.length < line.length + 2 ∧
        ∃ l, l ≠ [] ∧ future = mark false l ++ s) ∨
      ∃ q, b = line ++ crlf ++ raw q ∧ s = q ++ future := by
  rcases List.append_eq_append_iff.mp hstream with ⟨q, hp, hs⟩ | ⟨q, hmark, hfuture⟩
  · refine Or.inr ⟨q, ?_, hs⟩
    rw [← hraw, hp, raw_append, raw_mark]
  · obtain ⟨-, hq, hline⟩ := mark_eq_append hmark
    rw [hraw] at hline
    have hlength : line.length + 2 = b.length + (raw q).length := by
      rw [← List.length_append, ← hline, List.length_append]
      rfl
    by_cases hnil : raw q = []
    · refine Or.inr ⟨[], ?_, ?_⟩
      · rw [hline, hnil, raw_nil, List.append_nil, List.append_nil]
      · rw [hfuture, hq, hnil]
        rfl
    · have hpos := List.length_pos_iff.mpr hnil
      refine Or.inl ⟨?_, by omega, raw q, hnil, by rw [hfuture, ← hq]⟩
      cases hfind : BinaryBuffer.find b crlf with
      | none => rfl
      | some pos =>
        -- the line end that is found stays the first one
        rw [BinaryBuffer.find_eq_findSub (List.cons_ne_nil _ _)] at hfind
        have hmore := Search.findSub_append (raw q) hfind
        have hfirst := find_line hcr []
        rw [BinaryBuffer.find_eq_findSub (List.cons_ne_nil _ _), List.append_nil, hline, hmore] at hfirst
        have hin : pos + 2 ≤ b.length := Search.add_le_of_findSub hfind
        have : pos = line.length := Option.some.inj hfirst
        omega

theorem Writes.refl (h : Handler) : Writes h h [] :=
  .of_counters h h.context.buffer h.request.contentLength h.request.contentTotalLength

theorem startChunk_eq (h : Handler) (pos : Nat) (n : Int) :
    h.startChunk pos n = h.withCounters (h.context.buffer.drop (pos + 2)) n
      (toInt32 (h.request.contentTotalLength + n)) := by
  rw [← BinaryBuffer.erase_zero]
  rfl

/-- Without a CGI a refusal is final. -/
theorem bodyRet_of_file {h : Handler} (hfile : h.request.cgiPath = none) : h.bodyRet = .reqDone := by
  rw [bodyRet, hfile]

/-- The end of a body that goes to a file. -/
theorem saveFile_of_file (sys : Sys) {h : Handler} (hfile : h.request.cgiPath = none) :
    saveFile sys h = (.reqContinue, publish sys h.closeFile) := by
  unfold saveFile
  rw [hfile]
  rfl

theorem bodyRet_publish (sys : Sys) {h : Handler} (hfile : h.request.cgiPath = none) :
    (publish sys h.closeFile).endBody.bodyRet = .reqDone := by
  obtain ⟨f, hf⟩ := (reads_publish sys h.closeFile).fields
  rw [hf]
  exact bodyRet_of_file hfile

/-- The size line of a chunk, and what follows it. -/
theorem roundWrites_readSize_cons (sys : Sys) {last : LastChunk} {c : Chunk} {chunks : List Chunk}
    {h : Handler} {future : List (Byte × Bool)} {bound : Nat}
    (hstands : Stands last (.size (c :: chunks)) h future) (hbound : h.context.buffer.length ≤ bound)
    (hpos : 0 < bound) :
    RoundWrites sys last (.size (c :: chunks)) h future bound
      (readChunkSize sys h >>= readChunk sys) := by
  obtain ⟨p, hraw, hstream⟩ := hstands.stream
  rw [Rest.marked, markedChunks_cons] at hstream
  rcases split_line c.cr_notMem hraw hstream with ⟨hfind, hlt, l, hl, hfuture⟩ | ⟨q, hbuffer, hs⟩
  · rw [readChunkSize_of_none sys hstands.counter hfind]
    refine .returns (@CallWrites.waits _ _ _ _ _ _ h [] [] hstands ?_ rfl (.refl h) ?_)
    · exact Or.inr (by rw [Rest.slack]; omega)
    · rw [hfuture]
      exact ⟨fun _ => not_atPayload_mark_append hl _, fun _ => rfl⟩
  · have hfind : BinaryBuffer.find h.context.buffer crlf = some c.line.length := by
      rw [hbuffer]
      exact find_line c.cr_notMem (raw q)
    have hline : BinaryBuffer.substr h.context.buffer 0 c.line.length = c.line := by
      rw [hbuffer, BinaryBuffer.substr_zero, List.append_assoc, List.take_left]
    have hdrop : h.context.buffer.drop (c.line.length + 2) = raw q := by
      rw [hbuffer]
      exact List.drop_left' (by rw [List.length_append]; rfl)
    have hdata := List.length_pos_iff.mpr c.data_ne_nil
    have hnil : c.line ≠ [] := by
      intro hnil
      have hsize := c.size_eq
      rw [hnil, show sToContentLength [] true = 0 by decide] at hsize
      omega
    rw [readChunkSize_of_find sys hstands.counter hfind hline c.size_eq, if_neg hnil,
      if_neg (show (c.data.length : Int) ≠ contentLengthInvalid by
        unfold contentLengthInvalid
        omega), if_neg (by omega)]
    split_ifs with hlimit
    · rw [bodyRet_of_file hstands.cgiPath]
      exact .returns (.refuses (by decide))
    · have hgo : ((.ok (h.startChunk c.line.length c.data.length) : Round) >>= readChunk sys) =
          readChunk sys (h.startChunk c.line.length c.data.length) := pure_bind _ _
      rw [hgo, startChunk_eq, hdrop]
      have hlength : (raw q).length ≤ reqBufferSize := by
        have hfits : h.context.buffer.length ≤ c.line.length + 2 + reqBufferSize := by
          rcases hstands.fits with hlast | hle
          · cases hlast
          · exact hle
        rw [hbuffer, List.length_append, List.length_append, show crlf.length = 2 from rfl] at hfits
        omega
      have hless : (raw q).length ≤ bound := by
        rw [← hdrop, List.length_drop]
        omega
      have hint : (c.data.length : Int) ≤ int32Max := by
        rw [← c.size_eq]
        exact sToContentLength_le c.line true
      have hdata' : Stands last (.data c.data chunks) (h.withCounters (raw q) c.data.length
          (toInt32 (h.request.contentTotalLength + c.data.length))) future :=
        ⟨hstands.chunked, rfl, ⟨q, rfl, hs⟩, ⟨c.data_ne_nil, hint⟩, Rest.fits_of_le _ hlength,
          hstands.isOpen, hstands.cgiPath⟩
      exact (roundWrites_readChunk sys hdata' hpos hless).trans
        (by rw [Rest.body, Rest.body, List.flatMap_cons]) (.of_counters h _ _ _)

/-- The last size line. -/
theorem roundWrites_readSize_nil (sys : Sys) {last : LastChunk} {h : Handler}
    {future : List (Byte × Bool)} {bound : Nat} (hstands : Stands last (.size []) h future) :
    RoundWrites sys last (.size []) h future bound (readChunkSize sys h >>= readChunk sys) := by
  obtain ⟨p, hraw, hstream⟩ := hstands.stream
  have hnone : payload future = [] := by
    have hpayload := congrArg payload hstream
    rw [Rest.payload_marked, payload_append] at hpayload
    exact (List.append_eq_nil_iff.mp hpayload.symm).2
  have hsilent : ([] : Bytes) = [] ↔ ¬ AtPayload future :=
    ⟨fun _ => not_atPayload_of_payload hnone, fun _ => rfl⟩
  have hwaits : ∀ n, n = (-1 : Int) → CallWrites sys last (.size []) h future
      (.reqContinue, h.setContentLength n) := by
    intro n hn
    refine @CallWrites.waits _ _ _ _ _ (.size []) _ [] [] ?_ (Or.inl rfl) rfl
      (.of_counters h h.context.buffer n h.request.contentTotalLength) hsilent
    exact { hstands with counter := hn }
  rw [Rest.marked, markedChunks, List.flatMap_nil, List.nil_append, mark_append] at hstream
  rcases split_line last.cr_notMem hraw hstream with ⟨hfind, -⟩ | ⟨q, hbuffer, -⟩
  · rw [readChunkSize_of_none sys hstands.counter hfind]
    exact .returns (hwaits h.request.contentLength hstands.counter)
  · have hfind : BinaryBuffer.find h.context.buffer crlf = some last.line.length := by
      rw [hbuffer]
      exact find_line last.cr_notMem (raw q)
    have hline : BinaryBuffer.substr h.context.buffer 0 last.line.length = last.line := by
      rw [hbuffer, BinaryBuffer.substr_zero, List.append_assoc, List.take_left]
    rw [readChunkSize_of_find sys hstands.counter hfind hline last.size_eq,
      bodyRet_of_file hstands.cgiPath, if_neg (show (0 : Int) ≠ contentLengthInvalid by decide),
      if_pos rfl]
    split_ifs
    · exact .returns (.refuses (by decide))
    · refine .returns ?_
      unfold readEndOfTransfer
      split_ifs
      · have hfile : (h.setContentLength 0).clearBuffer.request.cgiPath = none := hstands.cgiPath
        rw [saveFile_of_file sys hfile]
        dsimp only
        rw [bodyRet_publish sys hfile]
        exact .ends hnone (.of_counters h [] 0 h.request.contentTotalLength)
      · exact hwaits (-1) rfl
      · rw [@bodyRet_of_file (h.setContentLength 0) hstands.cgiPath]
        exact .refuses (by decide)

theorem roundWrites_readSize (sys : Sys) {last : LastChunk} {chunks : List Chunk} {h : Handler}
    {future : List (Byte × Bool)} {bound : Nat} (hstands : Stands last (.size chunks) h future)
    (hbound : h.context.buffer.length ≤ bound) (hpos : 0 < bound) :
    RoundWrites sys last (.size chunks) h future bound (readChunkSize sys h >>= readChunk sys) := by
  cases chunks with
  | nil => exact roundWrites_readSize_nil sys hstands
  | cons c chunks => exact roundWrites_readSize_cons sys hstands hbound hpos

/-! ## The readers -/

/-- The end of a chunk. -/
theorem roundWrites_readTail (sys : Sys) {last : LastChunk} {chunks : List Chunk} {h : Handler}
    {future : List (Byte × Bool)} (hstands : Stands last (.tail chunks) h future)
    (hne : h.context.buffer ≠ []) :
    RoundWrites sys last (.tail chunks) h future h.context.buffer.length (readRound sys h) := by
  obtain ⟨p, hraw, hstream⟩ := hstands.stream
  have hcounter : h.request.contentLength = 0 := hstands.counter
  have hpos := List.length_pos_iff.mpr hne
  rcases @split_line [] _ List.not_mem_nil _ _ _ hraw hstream with
    ⟨-, hlt, l, hl, hfuture⟩ | ⟨q, hbuffer, hs⟩
  · have hcr : h.context.buffer = [cr] := by
      have hstart := congrArg raw hstream
      rw [raw_append, hraw] at hstart
      rw [List.length_nil] at hlt
      match hb : h.context.buffer, hne, hlt with
      | [x], _, _ =>
        rw [hb] at hstart
        have hx : cr = x := (List.cons.inj hstart).1
        rw [hx]
    have hwait : readEndOfChunk h = .error (.reqContinue, h) := by
      unfold readEndOfChunk
      dsimp only
      rw [if_pos hcounter, hcr]
      rfl
    rw [readRound_of_error hwait]
    refine .returns (@CallWrites.waits _ _ _ _ _ _ h [] [] hstands ?_ rfl (.refl h) ?_)
    · exact Or.inr (by rw [Rest.slack, hcr]; decide)
    · rw [hfuture]
      exact ⟨fun _ => not_atPayload_mark_append hl _, fun _ => rfl⟩
  · rw [List.nil_append] at hbuffer
    have hprefix : crlf.isPrefixOf h.context.buffer = true := by
      rw [hbuffer]
      exact List.isPrefixOf_iff_prefix.mpr (List.prefix_append _ _)
    have hdrop : h.context.buffer.drop 2 = raw q := by
      rw [hbuffer]
      exact List.drop_left' rfl
    have hlength : h.context.buffer.length = 2 + (raw q).length := by
      rw [hbuffer, List.length_append]
      rfl
    have hfits : h.context.buffer.length ≤ 2 + reqBufferSize := by
      rcases hstands.fits with hlast | hle
      · cases hlast
      · exact hle
    rw [readRound_of_ok (readEndOfChunk_of_isPrefixOf hcounter hprefix), hdrop]
    have hsize : Stands last (.size chunks)
        (h.withCounters (raw q) (-1) h.request.contentTotalLength) future :=
      ⟨hstands.chunked, rfl, ⟨q, rfl, hs⟩, trivial,
        Rest.fits_of_le _ (show (raw q).length ≤ reqBufferSize by omega), hstands.isOpen,
        hstands.cgiPath⟩
    exact @RoundWrites.trans _ _ (.tail chunks) (.size chunks) _ _ _ _ _ rfl (.of_counters h _ _ _)
      (roundWrites_readSize sys hsize (show (raw q).length ≤ h.context.buffer.length by omega) hpos)

/-- A round of the chunked reader.  By cases on what is expected: a size line, data, or the end of a chunk. -/
theorem roundWrites_readRound (sys : Sys) {last : LastChunk} {rest : Rest} {h : Handler}
    {future : List (Byte × Bool)} (hstands : Stands last rest h future)
    (hchunked : rest.isChunked = true) (hne : h.context.buffer ≠ []) :
    RoundWrites sys last rest h future h.context.buffer.length (readRound sys h) := by
  have hpos := List.length_pos_iff.mpr hne
  cases rest with
  | content todo => cases hchunked
  | tail chunks => exact roundWrites_readTail sys hstands hne
  | size chunks =>
    have hcounter : h.request.contentLength = -1 := hstands.counter
    have hok : readEndOfChunk h = .ok h := if_neg (by rw [hcounter]; decide)
    rw [readRound_of_ok hok]
    exact roundWrites_readSize sys hstands le_rfl hpos
  | data todo chunks =>
    have hcounter : h.request.contentLength = todo.length := hstands.counter
    have hdata := List.length_pos_iff.mpr hstands.proper.1
    have hok : readEndOfChunk h = .ok h := if_neg (by rw [hcounter]; omega)
    have hsize : readChunkSize sys h = .ok h := if_neg (by rw [hcounter]; omega)
    have hgo : ((.ok h : Round) >>= readChunk sys) = readChunk sys h := pure_bind _ _
    rw [readRound_of_ok hok, hsize, hgo]
    exact roundWrites_readChunk sys hstands hpos le_rfl

theorem readChunkedLoop_of_nil (sys : Sys) (n : Nat) {h : Handler} (hnil : h.context.buffer = []) :
    readChunkedLoop sys n h = (.reqContinue, h) := by
  cases n with
  | zero => rfl
  | succ n => rw [readChunkedLoop, if_pos hnil]

/-- The loop of the chunked reader.  Every round takes bytes off the buffer, so its length is fuel
enough. -/
theorem callWrites_readChunkedLoop (sys : Sys) {last : LastChunk} {future : List (Byte × Bool)} (n : Nat)
    {rest : Rest} {h : Handler} (hstands : Stands last rest h future)
    (hchunked : rest.isChunked = true) (hn : h.context.buffer.length ≤ n)
    (hnil : h.context.buffer = [] → ¬ AtPayload future) :
    CallWrites sys last rest h future (readChunkedLoop sys n h) := by
  induction n generalizing rest h with
  | zero =>
    have hbuffer : h.context.buffer = [] := List.eq_nil_of_length_eq_zero (by omega)
    exact @CallWrites.waits _ _ _ _ _ _ h [] [] hstands (Rest.fits_of_le _ hn) rfl (.refl h)
      ⟨fun _ => hnil hbuffer, fun _ => rfl⟩
  | succ n ih =>
    by_cases hbuffer : h.context.buffer = []
    · rw [readChunkedLoop_of_nil sys _ hbuffer]
      refine @CallWrites.waits _ _ _ _ _ _ h [] [] hstands (Rest.fits_of_le _ ?_) rfl (.refl h)
        ⟨fun _ => hnil hbuffer, fun _ => rfl⟩
      rw [hbuffer, List.length_nil]
    · rw [readChunkedLoop, if_neg hbuffer]
      have hround := roundWrites_readRound sys hstands hchunked hbuffer
      generalize readRound sys h = r at hround ⊢
      cases hround with
      | returns hcall => exact hcall
      | @goesOn rest₁ h₁ done extra hstands₁ hbody hwrites hless hsilent hlast =>
        have hchunked₁ : rest₁.isChunked = true := by
          rw [← hstands₁.chunked, hwrites.chunked, hstands.chunked, hchunked]
        by_cases hbuffer₁ : h₁.context.buffer = []
        · dsimp only
          rw [readChunkedLoop_of_nil sys _ hbuffer₁]
          refine .waits hstands₁ (Rest.fits_of_le _ ?_) hbody hwrites (hlast hbuffer₁)
          rw [hbuffer₁, List.length_nil]
        · have hextra := hsilent hbuffer₁
          rw [hextra, List.append_nil] at hwrites
          exact (ih hstands₁ hchunked₁ (by omega) fun hnil₁ => absurd hnil₁ hbuffer₁).trans hbody
            hwrites

/-- The reader of a body with a length.  Every byte that it takes is written, and the last one saves the
file. -/
theorem callWrites_readContent (sys : Sys) {last : LastChunk} {todo : Bytes} {h : Handler}
    {future : List (Byte × Bool)} (hstands : Stands last (.content todo) h future) :
    CallWrites sys last (.content todo) h future (readContent sys h) := by
  obtain ⟨p, hraw, hstream⟩ := hstands.stream
  obtain ⟨hne, hint⟩ := hstands.proper
  have hcounter : h.request.contentLength = todo.length := hstands.counter
  obtain ⟨-, hfuture, htodo⟩ := mark_eq_append hstream
  rw [hraw] at htodo
  have hlength : todo.length = h.context.buffer.length + (raw future).length := by
    rw [htodo, List.length_append]
  have hfits : toInt32 (h.request.contentLength - toInt32 h.context.buffer.length) ≥ 0 := by
    unfold int32Max at hint
    rw [hcounter, toInt32_of_range (z := h.context.buffer.length) (by omega)
      (by unfold int32Max; omega), toInt32_of_range (by omega) (by unfold int32Max; omega)]
    omega
  obtain ⟨hwrites, -, -⟩ := writes_writeFile sys hstands.isOpen todo.length
  rw [Int.toNat_natCast] at hwrites
  have hcounters := fun n : Int => hwrites.trans (Writes.of_counters (writeFile sys h todo.length) [] n
    (writeFile sys h todo.length).request.contentTotalLength)
  have hmemory : sys.readMemory h.context.buffer todo.length = h.context.buffer ++
      (List.range (todo.length - h.context.buffer.length)).map sys.overread := by
    rw [Sys.readMemory, List.take_of_length_le (by omega)]
  have hcgi : (writeFile sys h todo.length).request.cgiPath = none :=
    hwrites.cgiPath.trans hstands.cgiPath
  unfold readContent
  rw [if_pos hfits, writeChunk_of_file sys hstands.cgiPath, hcounter]
  dsimp only
  rw [consumeBuffer_writeFile sys hstands.isOpen hcounter hint (by omega)]
  by_cases hend : raw future = []
  · have hzero : todo.length - h.context.buffer.length = 0 := by
      rw [hlength, hend, List.length_nil]
      omega
    have hall := hcounters ↑(todo.length - h.context.buffer.length)
    rw [hmemory, hzero, List.range_zero, List.map_nil, List.append_nil, List.append_nil] at hall
    have hbody : (Rest.content todo).body = h.context.buffer := by
      rw [htodo, hend, List.append_nil]
      rfl
    rw [hzero]
    generalize hcounted : (writeFile sys h todo.length).withCounters [] ((0 : Nat) : Int)
      (writeFile sys h todo.length).request.contentTotalLength = h' at hall ⊢
    have hcgi' : h'.request.cgiPath = none := by
      rw [← hcounted]
      exact hcgi
    rw [if_pos (show h'.request.contentLength = 0 by rw [← hcounted]; rfl),
      saveFile_of_file sys hcgi']
    dsimp only
    rw [bodyRet_publish sys hcgi']
    refine .ends ?_ (by rw [hbody]; exact hall)
    rw [hfuture, hend]
    rfl
  · have hpos := List.length_pos_iff.mpr hend
    rw [if_neg (show (withCounters (writeFile sys h todo.length) []
      (↑(todo.length - h.context.buffer.length) : Int) _).request.contentLength ≠ 0 by
        show (↑(todo.length - h.context.buffer.length) : Int) ≠ 0
        omega)]
    have hall := hcounters ↑(todo.length - h.context.buffer.length)
    rw [hmemory, List.append_nil] at hall
    refine @CallWrites.waits _ _ _ _ _ (.content (raw future)) _ h.context.buffer
      ((List.range (todo.length - h.context.buffer.length)).map sys.overread) ?_
      (Rest.fits_of_le _ (Nat.zero_le _)) htodo hall ?_
    · refine ⟨hwrites.chunked.trans hstands.chunked, ?_, ⟨[], rfl, hfuture.symm⟩,
        ⟨hend, by omega⟩, Rest.fits_of_le _ (Nat.zero_le _), hwrites.isOpen.trans hstands.isOpen, hcgi⟩
      rw [hlength, Nat.add_sub_cancel_left]
      rfl
    · constructor
      · intro hnil
        have := congrArg List.length hnil
        rw [List.length_map, List.length_range, List.length_nil] at this
        omega
      · intro hnot
        rw [hfuture, ← List.append_nil (mark true (raw future))] at hnot
        exact absurd (atPayload_mark_append hend []) hnot

/-- **What a call of a reader does** at a rest of the body, with a file: it writes the data that it gets,
and too much if the bytes end before data. -/
theorem callWrites_readBody (sys : Sys) {last : LastChunk} {rest : Rest} {h : Handler}
    {future : List (Byte × Bool)} (hstands : Stands last rest h future)
    (hnil : rest.isChunked = true → h.context.buffer = [] → ¬ AtPayload future) :
    CallWrites sys last rest h future (readBody sys h) := by
  unfold readBody
  rw [hstands.chunked]
  cases rest with
  | content todo => exact callWrites_readContent sys hstands
  | _ => exact callWrites_readChunkedLoop sys _ hstands rfl le_rfl (hnil rfl)

/-! ## The target -/

/-- The temporary file takes the place of the target, when both calls succeed. -/
theorem node_rename (sys : Sys) {fs : FileSystem} {path tmp : Bytes} {n : Node}
    (hnode : fs.node (cstr tmp) = some n)
    (hremoved : fs.access path .exists = true → (sys.remove fs path).1 = true) :
    let fs' := if fs.access path .exists then (sys.remove fs path).2 else fs
    (sys.rename fs' tmp path).1 = true →
      (sys.remove (sys.rename fs' tmp path).2 tmp).2.node (cstr path) = some n := by
  intro fs' hrenamed
  have hentry : fs'.entry = fs.entry := by
    dsimp only [fs']
    split_ifs
    · exact entry_remove sys
    · rfl
  -- the target is another entry, or there would be nothing left to rename
  have hfs' : fs.entry (cstr tmp) ≠ fs.entry (cstr path) ∧ fs'.node (cstr tmp) = some n ∨
      fs'.node (cstr tmp) = none := by
    dsimp only [fs']
    split_ifs with hexists
    · have hgone := hremoved hexists
      rw [remove_fst] at hgone
      rw [remove_snd, if_pos hgone]
      by_cases hsame : fs.entry (cstr tmp) = fs.entry (cstr path)
      · exact Or.inr ((@node_eq_of_entry (fs.without path) _ _ hsame).trans node_without_self)
      · exact Or.inl ⟨hsame, (node_without_of_ne hsame).trans hnode⟩
    · refine Or.inl ⟨fun hsame => hexists ?_, hnode⟩
      rw [access_exists, ← node_eq_of_entry hsame, hnode]
      rfl
  unfold Sys.rename at hrenamed ⊢
  rcases hfs' with ⟨hne, hsome⟩ | hnone
  · rw [← hentry] at hne
    rw [hsome] at hrenamed ⊢
    dsimp only at hrenamed ⊢
    split_ifs at hrenamed ⊢
    have hgone : ((fs'.update tmp none).update path (some n)).node (cstr tmp) = none :=
      (@node_update_of_ne (fs'.update tmp none) path _ hne (some n)).trans (node_update_self none)
    rw [remove_snd, hgone, if_neg (by simp)]
    exact @node_update_self (fs'.update tmp none) path (some n)
  · rw [hnone] at hrenamed
    cases hrenamed

/-- The file system without the target, if there was one. -/
def withoutTarget (sys : Sys) (h : Handler) : FileSystem :=
  if h.request.path.access h.context.world.fs .exists then
    (sys.remove h.context.world.fs h.request.path.str).2
  else h.context.world.fs

theorem publish_fs (sys : Sys) (h : Handler) :
    (publish sys h).context.world.fs = (sys.remove (sys.rename (withoutTarget sys h)
      h.request.tmpFilename.str h.request.path.str).2 h.request.tmpFilename.str).2 := by
  rw [publish_eq_publishWith, publishWith_eq]
  rfl

/-- The status is 201 only when both calls succeeded, so that a file that was announced is there. -/
theorem publish_statusCode (sys : Sys) (h : Handler)
    (hcreated : (publish sys h).context.response.statusCode = statusCreated) :
    (h.request.path.access h.context.world.fs .exists = true →
        (sys.remove h.context.world.fs h.request.path.str).1 = true) ∧
      (sys.rename (withoutTarget sys h) h.request.tmpFilename.str h.request.path.str).1 = true := by
  rw [publish_eq_publishWith, publishWith_eq] at hcreated
  have hcode : publishCode sys (h.request.path.access h.context.world.fs .exists) h = statusCreated := hcreated
  unfold publishCode at hcode
  split_ifs at hcode with hboth
  · exact hboth
  · exact absurd hcode (by decide)

/-- An upload that ends with 201 is the file at its target. -/
theorem publish_created (sys : Sys) {h : Handler} (htemp : TempFile h)
    (hcreated : (publish sys h).context.response.statusCode = statusCreated) :
    ∃ n, (publish sys h).context.world.fs.node (cstr h.request.path.str) = some n ∧
      n.kind = .regular h.request.file.written := by
  obtain ⟨n, hnode, hkind⟩ := htemp
  obtain ⟨hremoved, hrenamed⟩ := publish_statusCode sys h hcreated
  refine ⟨n, ?_, hkind⟩
  rw [publish_fs]
  exact node_rename sys hnode hremoved hrenamed

end Handler
end Webserv
