import Webserv.Effects.Uploading

/-!
# What the readers send to the CGI

With a CGI the readers send the body on its socket.  When every `send` takes all the bytes it is given, each
call sends the data that it gets, and the call that comes to the end of the body closes the input of the
CGI.

* `Sends`: more data was sent.
* `Relays`: the handler is at a rest of the body, with some bytes of it unread.
* `CallSends`, `RoundSends`: what a call of a reader, and a round of its loop, does there.
* `callSends_readBody`: the two readers do that.

## Why a rest

What a reader does next depends on where it stands: before a size line, inside the data of a chunk, before
the end of one, or inside a body with a length.  `Rest` has these as constructors, with what is left of the
body in each, and the counter `_contentLength` has the value that belongs to the place.  A call starts at a
rest and ends at another one, or at the end of the body.  What it has sent is the difference of the two: the
data left before is the data sent and the data left after.

## Why rounds and calls

The chunked reader is a loop, which goes on as long as the buffer is not empty.  A round treats one piece
and leaves a shorter buffer, and this is what the induction over the rounds rests on (`RoundSends` bounds
the length).  A call is the composition of its rounds.  Both relations compose with what was sent before
(`CallSends.trans`, `RoundSends.trans`), so the lemmas about pieces are short, and the loop is one
induction.

## Why a partial `send` is excluded

The size that was asked for is counted off whatever `send` has taken.  With a partial `send` bytes are lost,
and no rest describes what the CGI gets.  `TakesAll` is the assumption that this does not happen.
-/

namespace Webserv

open Payload

/-! ## Calls on the socket -/

/-- Every `send` on the CGI socket of at most `size` bytes takes them all. -/
def Sys.TakesAll (sys : Sys) (size : Nat) : Prop :=
  ∀ i, ∃ n, size ≤ n ∧ sys.cgiSend i = .accepted n

theorem Sys.TakesAll.mono {sys : Sys} {size size' : Nat} (h : sys.TakesAll size) (hle : size' ≤ size) :
    sys.TakesAll size' := fun i => by
  obtain ⟨n, hn, hsend⟩ := h i
  exact ⟨n, hle.trans hn, hsend⟩

/-- The bytes that a call on the socket sent. -/
def CgiCall.sent : CgiCall → Option Bytes
  | .send _ _ _ sent => some sent
  | _ => none

/-- Calls that send `data`, a part after the other, with nothing in between and no other call. -/
structure SendsOnly (calls : List CgiCall) (data : Bytes) : Prop where
  isSome : ∀ call ∈ calls, call.sent.isSome = true
  data : (calls.filterMap CgiCall.sent).flatten = data

theorem SendsOnly.nil : SendsOnly [] [] := ⟨fun _ hmem => absurd hmem List.not_mem_nil, rfl⟩

theorem SendsOnly.append {calls₁ calls₂ : List CgiCall} {x y : Bytes} (h₁ : SendsOnly calls₁ x)
    (h₂ : SendsOnly calls₂ y) : SendsOnly (calls₁ ++ calls₂) (x ++ y) := by
  refine ⟨fun call hmem => ?_, ?_⟩
  · rcases List.mem_append.mp hmem with hmem | hmem
    · exact h₁.isSome call hmem
    · exact h₂.isSome call hmem
  · rw [List.filterMap_append, List.flatten_append, h₁.data, h₂.data]

namespace Handler

/-! ## Sending -/

/-- More data was sent to the CGI, and nothing else but the buffer and the counters has changed. -/
structure Sends (h h' : Handler) (data : Bytes) : Prop where
  fields : ∃ f, h' = h.withBody f
  statusCode : h'.context.response.statusCode = h.context.response.statusCode
  calls : ∃ calls, h'.context.world.calls = h.context.world.calls ++ calls ∧ SendsOnly calls data

theorem Sends.of_counters (h : Handler) (buffer : Bytes) (n m : Int) :
    Sends h (h.withCounters buffer n m) [] where
  fields := ⟨{ h.bodyFields with
    buffer := buffer, contentLength := n, contentTotalLength := m }, rfl⟩
  statusCode := rfl
  calls := ⟨[], (List.append_nil _).symm, .nil⟩

theorem Sends.refl (h : Handler) : Sends h h [] :=
  .of_counters h h.context.buffer h.request.contentLength h.request.contentTotalLength

theorem Sends.trans {h₁ h₂ h₃ : Handler} {x y : Bytes} (h₁₂ : Sends h₁ h₂ x) (h₂₃ : Sends h₂ h₃ y) :
    Sends h₁ h₃ (x ++ y) where
  fields := by
    obtain ⟨f, rfl⟩ := h₁₂.fields
    obtain ⟨g, rfl⟩ := h₂₃.fields
    exact ⟨g, rfl⟩
  statusCode := h₂₃.statusCode.trans h₁₂.statusCode
  calls := by
    obtain ⟨calls₁, hcalls₁, hsends₁⟩ := h₁₂.calls
    obtain ⟨calls₂, hcalls₂, hsends₂⟩ := h₂₃.calls
    exact ⟨calls₁ ++ calls₂, by rw [hcalls₂, hcalls₁, List.append_assoc], hsends₁.append hsends₂⟩

/-- The handler after a `send` of the first `size` unread bytes. -/
def sendAll (h : Handler) (size : Nat) : Handler :=
  let unread := h.context.buffer
  { h with context := h.context.record (.send h.context.cgiSocket unread.length size (unread.take size)) }

theorem sends_sendAll (h : Handler) (size : Nat) :
    Sends h (h.sendAll size) (h.context.buffer.take size) where
  fields := ⟨{ h.bodyFields with calls := _ }, rfl⟩
  statusCode := rfl
  calls := by
    refine ⟨_, rfl, ?_, ?_⟩
    · intro call hmem
      rw [List.mem_singleton.mp hmem]
      rfl
    · exact List.append_nil _

theorem writeChunk_of_cgi {sys : Sys} {h : Handler} {size : Nat} (hcgi : h.request.cgiPath.isSome = true)
    (hsocket : h.context.cgiSocket ≠ -1) (htakes : sys.TakesAll size)
    (hle : size ≤ h.context.buffer.length) : writeChunk sys h size = (.reqContinue, h.sendAll size) := by
  obtain ⟨cgi, hcgi⟩ := Option.isSome_iff_exists.mp hcgi
  obtain ⟨n, hn, hsend⟩ := htakes h.context.world.calls.length
  unfold writeChunk
  rw [hcgi]
  dsimp only
  unfold sendCGI
  dsimp only
  rw [if_neg hsocket, hsend]
  dsimp only
  rw [Nat.min_eq_right hn, Sys.readMemory_of_le sys hle]
  rfl

/-- The handler after `_saveFile`: the input of the CGI is closed. -/
def closeInput (h : Handler) : Handler :=
  let fd := h.context.cgiSocket
  let h := { h with context := h.context.record (.shutdown fd) }
  let h := h.setStatusCode statusOk
  { h with context := h.context.record (.epollCtl fd) }

theorem saveFile_of_cgi (sys : Sys) {h : Handler} (hcgi : h.request.cgiPath.isSome = true) :
    saveFile sys h = (.reqContinue, h.closeInput) ∨ saveFile sys h = (.throws .runtimeError, h.closeInput) := by
  obtain ⟨cgi, hcgi⟩ := Option.isSome_iff_exists.mp hcgi
  unfold saveFile
  rw [hcgi]
  dsimp only
  split_ifs
  · exact Or.inl rfl
  · exact Or.inr rfl

/-- The end of a chunk is complete, or the bytes end inside it. -/
theorem split_tail {b : Bytes} {p future s : List (Byte × Bool)} (hraw : raw p = b)
    (hstream : mark false crlf ++ s = p ++ future) (hne : b ≠ []) :
    (b = [cr] ∧ future ≠ []) ∨ ∃ q, b = crlf ++ raw q ∧ s = q ++ future := by
  rcases @split_line [] _ List.not_mem_nil _ _ _ hraw hstream with
    ⟨-, hlt, l, hl, hfuture⟩ | ⟨q, hbuffer, hs⟩
  · refine Or.inl ⟨?_, ?_⟩
    · have hstart := congrArg raw hstream
      rw [raw_append, raw_append, hraw] at hstart
      rw [List.length_nil] at hlt
      match b, hne, hlt with
      | [x], _, _ =>
        have hx : cr = x := (List.cons.inj hstart).1
        rw [hx]
    · intro hnil
      rw [hnil] at hfuture
      exact hl (List.map_eq_nil_iff.mp (List.append_eq_nil_iff.mp hfuture.symm).1)
  · exact Or.inr ⟨q, hbuffer, hs⟩

/-! ## Where a reader stands -/

/-- The end of a well-formed chunked body: the size 0, and a trailer without lines. -/
def terminator : LastChunk where
  line := bytes "0"
  trailer := crlf
  cr_notMem := by decide
  size_eq := by decide

end Handler

/-- The data of the chunks whose size line is still to come. -/
def Rest.pending : Rest → Bytes
  | content _ => []
  | size chunks => chunks.flatMap Chunk.data
  | data _ chunks => chunks.flatMap Chunk.data
  | tail chunks => chunks.flatMap Chunk.data

theorem Rest.marked_ne_nil {last : LastChunk} {rest : Rest} (h : rest.Proper) : rest.marked last ≠ [] := by
  have hchunks : ∀ chunks, markedChunks last chunks ≠ [] := by
    intro chunks
    unfold markedChunks
    rw [mark_append, mark_append]
    simp [mark]
  cases rest with
  | content todo =>
    intro hnil
    exact h.1 (List.map_eq_nil_iff.mp hnil)
  | size chunks => exact hchunks chunks
  | data todo chunks => exact fun hnil => hchunks chunks (List.append_eq_nil_iff.mp
      (List.append_eq_nil_iff.mp hnil).2).2
  | tail chunks => exact fun hnil => hchunks chunks (List.append_eq_nil_iff.mp hnil).2

namespace Handler

/-- The reader is at a rest of the body, and what will be read is `future`.  Altogether the stream has
at most `size` bytes left. -/
structure Relays (size : Nat) (rest : Rest) (h : Handler) (future : List (Byte × Bool)) : Prop where
  chunked : h.request.chunked = rest.isChunked
  counter : h.request.contentLength = rest.counter
  stream : ∃ p, raw p = h.context.buffer ∧ rest.marked terminator = p ++ future
  proper : rest.Proper
  length : (rest.marked terminator).length ≤ size
  total_nonneg : 0 ≤ h.request.contentTotalLength
  total_le : h.request.contentTotalLength + rest.pending.length ≤ int32Max
  limit : h.request.contentTotalLength + rest.pending.length ≤ h.maxBodySize
  cgiPath : h.request.cgiPath.isSome = true
  socket : h.context.cgiSocket ≠ -1

/-- What a call of a reader does at a rest of the body: it waits at another rest for bytes that are
still to come, or it comes to the end of the body. -/
inductive CallSends (size : Nat) (rest : Rest) (h : Handler) (future : List (Byte × Bool)) :
    Ret × Handler → Prop where
  | waits {rest' : Rest} {h' : Handler} {done : Bytes} (hrelays : Relays size rest' h' future)
      (hfuture : future ≠ []) (hbody : rest.body = done ++ rest'.body) (hsends : Sends h h' done) :
      CallSends size rest h future (.reqContinue, h')
  | ends {ret : Ret} {h' h'' : Handler} (hsends : Sends h h' rest.body)
      (hcalls : h''.context.world.calls = h'.closeInput.context.world.calls)
      (hstatus : h''.context.response.statusCode = statusOk) : CallSends size rest h future (ret, h'')

/-- A call goes on from a rest where data was sent. -/
theorem CallSends.trans {size : Nat} {rest rest₁ : Rest} {h h₁ : Handler} {future : List (Byte × Bool)}
    {done : Bytes} {r : Ret × Handler} (hbody : rest.body = done ++ rest₁.body)
    (hsends : Sends h h₁ done) (hcall : CallSends size rest₁ h₁ future r) :
    CallSends size rest h future r := by
  cases hcall with
  | waits hrelays hfuture hbody' hsends' =>
    exact .waits hrelays hfuture (by rw [hbody, hbody', List.append_assoc]) (hsends.trans hsends')
  | ends hsends' hcalls hstatus =>
    refine .ends ?_ hcalls hstatus
    rw [hbody]
    exact hsends.trans hsends'

/-- What a round does at a rest of the body.  It leaves a shorter buffer. -/
inductive RoundSends (size : Nat) (rest : Rest) (h : Handler) (future : List (Byte × Bool)) (bound : Nat) :
    Round → Prop where
  | goesOn {rest₁ : Rest} {h₁ : Handler} {done : Bytes} (hrelays : Relays size rest₁ h₁ future)
      (hbody : rest.body = done ++ rest₁.body) (hsends : Sends h h₁ done)
      (hless : h₁.context.buffer.length < bound) : RoundSends size rest h future bound (.ok h₁)
  | returns {r : Ret × Handler} (hcall : CallSends size rest h future r) :
      RoundSends size rest h future bound (.error r)

theorem RoundSends.trans {size : Nat} {rest rest₁ : Rest} {h h₁ : Handler} {future : List (Byte × Bool)}
    {bound : Nat} {r : Round} (hbody : rest.body = rest₁.body) (hsends : Sends h h₁ [])
    (hround : RoundSends size rest₁ h₁ future bound r) : RoundSends size rest h future bound r := by
  cases hround with
  | goesOn hrelays hbody' hsends' hless =>
    exact .goesOn hrelays (hbody.trans hbody') (hsends.trans hsends') hless
  | returns hcall => exact .returns (hcall.trans hbody hsends)

/-- The reader at another rest, where data was sent. -/
theorem Relays.after {size : Nat} {rest rest₁ : Rest} {h h₁ : Handler} {future : List (Byte × Bool)}
    {done : Bytes} (hrelays : Relays size rest h future) (hsends : Sends h h₁ done)
    (hchunked : rest.isChunked = rest₁.isChunked) (hcounter : h₁.request.contentLength = rest₁.counter)
    (hstream : ∃ p, raw p = h₁.context.buffer ∧ rest₁.marked terminator = p ++ future)
    (hproper : rest₁.Proper)
    (hlength : (rest₁.marked terminator).length ≤ (rest.marked terminator).length)
    (hnonneg : 0 ≤ h₁.request.contentTotalLength)
    (htotal : h₁.request.contentTotalLength + rest₁.pending.length =
      h.request.contentTotalLength + rest.pending.length) : Relays size rest₁ h₁ future := by
  obtain ⟨f, hf⟩ := hsends.fields
  have hsame : h₁.request.chunked = h.request.chunked ∧ h₁.maxBodySize = h.maxBodySize ∧
      h₁.request.cgiPath = h.request.cgiPath ∧ h₁.context.cgiSocket = h.context.cgiSocket := by
    rw [hf]
    exact ⟨rfl, rfl, rfl, rfl⟩
  obtain ⟨hchunked₁, hlimit₁, hcgi₁, hsocket₁⟩ := hsame
  refine ⟨(hchunked₁.trans hrelays.chunked).trans hchunked, hcounter, hstream, hproper,
    hlength.trans hrelays.length, hnonneg, ?_, ?_, ?_, ?_⟩
  · rw [htotal]
    exact hrelays.total_le
  · rw [htotal, hlimit₁]
    exact hrelays.limit
  · rw [hcgi₁]
    exact hrelays.cgiPath
  · rw [hsocket₁]
    exact hrelays.socket

/-- The unread bytes are a part of the stream, which bounds them and with that the rounds of the loop. -/
theorem Relays.buffer_le {size : Nat} {rest : Rest} {h : Handler} {future : List (Byte × Bool)}
    (hrelays : Relays size rest h future) :
    h.context.buffer.length + future.length ≤ (rest.marked terminator).length := by
  obtain ⟨p, hraw, hstream⟩ := hrelays.stream
  rw [hstream, List.length_append, ← hraw, length_raw]

/-! ## The data of a chunk -/

section Reading

variable {sys : Sys} {size : Nat}

theorem readChunk_of_lt_cgi {h : Handler} {n : Nat} (hcgi : h.request.cgiPath.isSome = true)
    (hsocket : h.context.cgiSocket ≠ -1) (htakes : sys.TakesAll n) (hcounter : h.request.contentLength = n)
    (hn : (n : Int) ≤ int32Max) (hlt : toInt32 h.context.buffer.length > h.request.contentLength)
    (hle : n ≤ h.context.buffer.length) :
    readChunk sys h = .ok ((h.sendAll n).withCounters (h.context.buffer.drop n) 0
      h.request.contentTotalLength) := by
  have hsize : toSize h.request.contentLength = n := by
    unfold int32Max at hn
    rw [hcounter, toSize_of_range (by omega) (by omega), Int.toNat_natCast]
  have hsize' : toSize (h.sendAll n).request.contentLength = n := hsize
  unfold readChunk
  dsimp only
  rw [if_pos hlt, hsize, writeChunk_of_cgi hcgi hsocket htakes hle]
  dsimp only
  rw [hsize', eraseBuffer, BinaryBuffer.erase_zero]
  rfl

/-- The unread bytes are counted off. -/
theorem consumeBuffer_sendAll {h : Handler} {n : Nat} (hcounter : h.request.contentLength = n)
    (hn : (n : Int) ≤ int32Max) (hle : h.context.buffer.length ≤ n) :
    (h.sendAll h.context.buffer.length).consumeBuffer = (h.sendAll h.context.buffer.length).withCounters
      [] ↑(n - h.context.buffer.length) h.request.contentTotalLength := by
  have hrest : toInt32 (h.request.contentLength - h.context.buffer.length) =
      ↑(n - h.context.buffer.length) := by
    unfold int32Max at hn
    rw [hcounter, toInt32_of_range (by omega) (by unfold int32Max; omega)]
    omega
  unfold consumeBuffer
  rw [show toInt32 ((h.sendAll h.context.buffer.length).request.contentLength -
    (h.sendAll h.context.buffer.length).context.buffer.length) = _ from hrest]
  rfl

theorem readChunk_of_le_cgi {h : Handler} {n : Nat} (hcgi : h.request.cgiPath.isSome = true)
    (hsocket : h.context.cgiSocket ≠ -1) (htakes : sys.TakesAll h.context.buffer.length)
    (hcounter : h.request.contentLength = n) (hn : (n : Int) ≤ int32Max)
    (hle : h.context.buffer.length ≤ n)
    (hnot : ¬ toInt32 h.context.buffer.length > h.request.contentLength) :
    readChunk sys h = .ok ((h.sendAll h.context.buffer.length).withCounters []
      ↑(n - h.context.buffer.length) h.request.contentTotalLength) := by
  unfold readChunk
  dsimp only
  rw [if_neg hnot, writeChunk_of_cgi hcgi hsocket htakes le_rfl]
  dsimp only
  rw [consumeBuffer_sendAll hcounter hn hle]
  rfl

theorem sends_sendAll_withCounters (h : Handler) (n : Nat) (buffer : Bytes) (k m : Int) :
    Sends h ((h.sendAll n).withCounters buffer k m) (h.context.buffer.take n) := by
  have hsends := (sends_sendAll h n).trans (.of_counters (h.sendAll n) buffer k m)
  rwa [List.append_nil] at hsends

variable (htakes : sys.TakesAll size) (hsize : (size : Int) ≤ int32Max)

include htakes hsize

/-- The data of a chunk: the bytes end inside it, or the end of the chunk comes next. -/
theorem roundSends_readChunk {todo : Bytes} {chunks : List Chunk} {h : Handler}
    {future : List (Byte × Bool)} {bound : Nat} (hrelays : Relays size (.data todo chunks) h future)
    (hpos : 0 < bound) (hbound : h.context.buffer.length ≤ bound) :
    RoundSends size (.data todo chunks) h future bound (readChunk sys h) := by
  obtain ⟨p, hraw, hstream⟩ := hrelays.stream
  obtain ⟨hne, hint⟩ := hrelays.proper
  have hlength := hrelays.buffer_le
  have hle := hrelays.length
  have h32 : toInt32 h.context.buffer.length = h.context.buffer.length :=
    toInt32_of_range (by omega) (by omega)
  have hcounter : h.request.contentLength = todo.length := hrelays.counter
  have htodo_le : todo.length ≤ size := by
    rw [Rest.marked, List.length_append, length_mark] at hle
    omega
  rcases split_data hraw hstream with ⟨todo', htodo', htodo, hfuture⟩ | ⟨q, hbuffer, hs⟩
  · -- the bytes end inside the data
    have hlen : todo.length = h.context.buffer.length + todo'.length := by
      rw [htodo, List.length_append]
    have hpos' := List.length_pos_iff.mpr htodo'
    have hsends := sends_sendAll_withCounters h h.context.buffer.length []
      ↑(todo.length - h.context.buffer.length) h.request.contentTotalLength
    rw [List.take_of_length_le le_rfl] at hsends
    rw [readChunk_of_le_cgi hrelays.cgiPath hrelays.socket (htakes.mono (by omega)) hcounter hint
      (by omega) (by rw [h32, hcounter]; omega)]
    refine @RoundSends.goesOn _ _ _ _ _ (.data todo' chunks) _ h.context.buffer ?_ ?_ hsends hpos
    · refine hrelays.after hsends rfl ?_ ⟨[], rfl, hfuture.symm⟩ ⟨htodo', by omega⟩ ?_
        hrelays.total_nonneg rfl
      · rw [hlen, Nat.add_sub_cancel_left]
        rfl
      · simp only [Rest.marked, List.length_append, length_mark]
        omega
    · rw [Rest.body, Rest.body, htodo, List.append_assoc]
  · -- the data is there, and only the data is sent
    have hlen : h.context.buffer.length = todo.length + (raw q).length := by
      rw [hbuffer, List.length_append]
    have hdrop : h.context.buffer.drop todo.length = raw q := by rw [hbuffer, List.drop_left]
    have hnonempty := List.length_pos_iff.mpr hne
    have hgoesOn : ∀ n, n = (0 : Int) → RoundSends size (.data todo chunks) h future bound
        (.ok ((h.sendAll todo.length).withCounters (raw q) n h.request.contentTotalLength)) := by
      intro n hn
      have hsends := sends_sendAll_withCounters h todo.length (raw q) n h.request.contentTotalLength
      have htake : h.context.buffer.take todo.length = todo := by rw [hbuffer, List.take_left]
      rw [htake] at hsends
      refine @RoundSends.goesOn _ _ _ _ _ (.tail chunks) _ todo ?_ rfl hsends ?_
      · refine hrelays.after hsends rfl hn ⟨q, rfl, hs⟩ trivial ?_ hrelays.total_nonneg rfl
        simp only [Rest.marked, List.length_append, length_mark]
        omega
      · show (raw q).length < bound
        omega
    by_cases hlt : toInt32 h.context.buffer.length > h.request.contentLength
    · rw [readChunk_of_lt_cgi hrelays.cgiPath hrelays.socket (htakes.mono htodo_le) hcounter hint hlt
        (by omega), hdrop]
      exact hgoesOn 0 rfl
    · have hall : h.context.buffer.length = todo.length := by
        rw [h32, hcounter] at hlt
        omega
      have hnil : raw q = [] := List.eq_nil_of_length_eq_zero (by omega)
      rw [readChunk_of_le_cgi hrelays.cgiPath hrelays.socket (htakes.mono (by omega)) hcounter hint
        (by omega) hlt]
      have hzero := hgoesOn ↑(todo.length - h.context.buffer.length) (by omega)
      rw [hnil] at hzero
      rw [hall] at hzero ⊢
      exact hzero

/-! ## Size lines -/

/-- The size line of a chunk, and what follows it. -/
theorem roundSends_readSize_cons {c : Chunk} {chunks : List Chunk} {h : Handler}
    {future : List (Byte × Bool)} {bound : Nat} (hrelays : Relays size (.size (c :: chunks)) h future)
    (hbound : h.context.buffer.length ≤ bound) (hpos : 0 < bound) :
    RoundSends size (.size (c :: chunks)) h future bound (readChunkSize sys h >>= readChunk sys) := by
  obtain ⟨p, hraw, hstream⟩ := hrelays.stream
  rw [Rest.marked, markedChunks_cons] at hstream
  rcases split_line c.cr_notMem hraw hstream with ⟨hfind, hlt, l, hl, hfuture⟩ | ⟨q, hbuffer, hs⟩
  · rw [readChunkSize_of_none sys hrelays.counter hfind]
    refine .returns (@CallSends.waits _ _ _ _ _ h [] hrelays ?_ rfl (.refl h))
    intro hnil
    rw [hnil] at hfuture
    exact hl (List.map_eq_nil_iff.mp (List.append_eq_nil_iff.mp hfuture.symm).1)
  · have hfind : BinaryBuffer.find h.context.buffer crlf = some c.line.length := by
      rw [hbuffer]
      exact find_line c.cr_notMem (raw q)
    have hline : BinaryBuffer.substr h.context.buffer 0 c.line.length = c.line := by
      rw [hbuffer, BinaryBuffer.substr_zero, List.append_assoc, List.take_left]
    have hdrop : h.context.buffer.drop (c.line.length + 2) = raw q := by
      rw [hbuffer]
      exact List.drop_left' (by rw [List.length_append]; rfl)
    have hdata := List.length_pos_iff.mpr c.data_ne_nil
    have hnil : c.line ≠ [] := by
      intro hnil
      have hsize := c.size_eq
      rw [hnil, show sToContentLength [] true = 0 by decide] at hsize
      omega
    have hpending : (Rest.size (c :: chunks)).pending.length =
        c.data.length + (chunks.flatMap Chunk.data).length := by
      rw [Rest.pending, List.flatMap_cons, List.length_append]
    have hle := hrelays.total_le
    have hlimit := hrelays.limit
    have hnonneg := hrelays.total_nonneg
    rw [hpending] at hle hlimit
    have htotal : toInt32 (h.request.contentTotalLength + c.data.length) =
        h.request.contentTotalLength + c.data.length :=
      toInt32_of_range (by omega) (by omega)
    have hnot : ¬ h.ExceedsLimit c.data.length := by
      unfold ExceedsLimit contentLengthTooLarge
      rw [htotal]
      omega
    rw [readChunkSize_of_find sys hrelays.counter hfind hline c.size_eq, if_neg hnil,
      if_neg (show (c.data.length : Int) ≠ contentLengthInvalid by
        unfold contentLengthInvalid
        omega), if_neg (by omega), if_neg hnot]
    have hgo : ((.ok (h.startChunk c.line.length c.data.length) : Round) >>= readChunk sys) =
        readChunk sys (h.startChunk c.line.length c.data.length) := pure_bind _ _
    rw [hgo, startChunk_eq, hdrop, htotal]
    have hless : (raw q).length ≤ bound := by
      rw [← hdrop, List.length_drop]
      omega
    have hint : (c.data.length : Int) ≤ int32Max := by
      rw [← c.size_eq]
      exact sToContentLength_le c.line true
    have hcounters := Sends.of_counters h (raw q) c.data.length
      (h.request.contentTotalLength + c.data.length)
    have hdata' : Relays size (.data c.data chunks) (h.withCounters (raw q) c.data.length
        (h.request.contentTotalLength + c.data.length)) future := by
      refine hrelays.after hcounters rfl rfl ⟨q, rfl, hs⟩ ⟨c.data_ne_nil, hint⟩ ?_ ?_ ?_
      · simp only [Rest.marked, markedChunks_cons, List.length_append]
        omega
      · show 0 ≤ h.request.contentTotalLength + c.data.length
        omega
      · rw [hpending]
        show h.request.contentTotalLength + c.data.length + (chunks.flatMap Chunk.data).length = _
        omega
    exact (roundSends_readChunk htakes hsize hdata' hpos hless).trans
      (by rw [Rest.body, Rest.body, List.flatMap_cons]) hcounters

omit htakes hsize in
/-- `compare` looks at the common length only. -/
theorem memcmp_of_prefix {b w : Bytes} (h : b <+: w) (n : Nat) : BinaryBuffer.memcmp b w n = 0 := by
  induction n generalizing b w with
  | zero => cases b <;> cases w <;> rfl
  | succ n ih =>
    cases b with
    | nil => rfl
    | cons a b =>
      cases w with
      | nil => rfl
      | cons c w =>
        obtain ⟨rfl, htail⟩ := List.cons_prefix_cons.mp h
        rw [BinaryBuffer.memcmp, if_pos rfl, ih htail]

omit htakes hsize in
/-- The input of the CGI is closed: what a reader returns then. -/
theorem CallSends.of_saveFile {rest : Rest} {h h' : Handler} {future : List (Byte × Bool)}
    (hsends : Sends h h' rest.body) (hcgi : h'.request.cgiPath.isSome = true) :
    CallSends size rest h future (match saveFile sys h' with
      | (.throws f, h) => (.throws f, h)
      | (_, h) => (h.endBody.bodyRet, h.endBody)) := by
  rcases saveFile_of_cgi sys hcgi with hsave | hsave
  · rw [hsave]
    exact .ends hsends rfl rfl
  · rw [hsave]
    exact .ends hsends rfl rfl

omit htakes hsize in
/-- The last size line. -/
theorem roundSends_readSize_nil {h : Handler} {future : List (Byte × Bool)} {bound : Nat}
    (hrelays : Relays size (.size []) h future) :
    RoundSends size (.size []) h future bound (readChunkSize sys h >>= readChunk sys) := by
  obtain ⟨p, hraw, hstream⟩ := hrelays.stream
  rw [Rest.marked, markedChunks, List.flatMap_nil, List.nil_append] at hstream
  have hprefix : h.context.buffer <+: terminator.line ++ crlf ++ terminator.trailer := by
    refine ⟨raw future, ?_⟩
    rw [← hraw, ← raw_append, ← hstream, raw_mark]
  rw [mark_append] at hstream
  rcases split_line terminator.cr_notMem hraw hstream with ⟨hfind, -, l, hl, hfuture⟩ | ⟨q, hbuffer, -⟩
  · rw [readChunkSize_of_none sys hrelays.counter hfind]
    refine .returns (@CallSends.waits _ _ _ _ _ h [] hrelays ?_ rfl (.refl h))
    intro hnil
    rw [hnil] at hfuture
    exact hl (List.map_eq_nil_iff.mp (List.append_eq_nil_iff.mp hfuture.symm).1)
  · have hfind : BinaryBuffer.find h.context.buffer crlf = some terminator.line.length := by
      rw [hbuffer]
      exact find_line terminator.cr_notMem (raw q)
    have hline : BinaryBuffer.substr h.context.buffer 0 terminator.line.length = terminator.line := by
      rw [hbuffer, BinaryBuffer.substr_zero, List.append_assoc, List.take_left]
    rw [readChunkSize_of_find sys hrelays.counter hfind hline terminator.size_eq,
      if_neg (show terminator.line ≠ [] by decide),
      if_neg (show (0 : Int) ≠ contentLengthInvalid by decide), if_pos rfl]
    have hend : isTerminator (h.setContentLength 0).context.buffer 0 = true :=
      decide_eq_true ( memcmp_of_prefix hprefix _)
    unfold readEndOfTransfer
    rw [if_pos hend]
    exact .returns (.of_saveFile (.of_counters h [] 0 h.request.contentTotalLength) hrelays.cgiPath)

theorem roundSends_readSize {chunks : List Chunk} {h : Handler} {future : List (Byte × Bool)} {bound : Nat}
    (hrelays : Relays size (.size chunks) h future) (hbound : h.context.buffer.length ≤ bound)
    (hpos : 0 < bound) :
    RoundSends size (.size chunks) h future bound (readChunkSize sys h >>= readChunk sys) := by
  cases chunks with
  | nil => exact roundSends_readSize_nil hrelays
  | cons c chunks => exact roundSends_readSize_cons htakes hsize hrelays hbound hpos

/-! ## The readers -/

/-- The end of a chunk. -/
theorem roundSends_readTail {chunks : List Chunk} {h : Handler} {future : List (Byte × Bool)}
    (hrelays : Relays size (.tail chunks) h future) (hne : h.context.buffer ≠ []) :
    RoundSends size (.tail chunks) h future h.context.buffer.length (readRound sys h) := by
  obtain ⟨p, hraw, hstream⟩ := hrelays.stream
  have hcounter : h.request.contentLength = 0 := hrelays.counter
  have hpos := List.length_pos_iff.mpr hne
  rcases split_tail hraw hstream hne with ⟨hcr, hfuture⟩ | ⟨q, hbuffer, hs⟩
  · have hwait : readEndOfChunk h = .error (.reqContinue, h) := by
      unfold readEndOfChunk
      dsimp only
      rw [if_pos hcounter, hcr]
      rfl
    rw [readRound_of_error hwait]
    exact .returns (@CallSends.waits _ _ _ _ _ h [] hrelays hfuture rfl (.refl h))
  · have hprefix : crlf.isPrefixOf h.context.buffer = true := by
      rw [hbuffer]
      exact List.isPrefixOf_iff_prefix.mpr (List.prefix_append _ _)
    have hdrop : h.context.buffer.drop 2 = raw q := by
      rw [hbuffer]
      exact List.drop_left' rfl
    have hlength : h.context.buffer.length = 2 + (raw q).length := by
      rw [hbuffer, List.length_append]
      rfl
    rw [readRound_of_ok (readEndOfChunk_of_isPrefixOf hcounter hprefix), hdrop]
    have hcounters := Sends.of_counters h (raw q) (-1) h.request.contentTotalLength
    have hsize' : Relays size (.size chunks)
        (h.withCounters (raw q) (-1) h.request.contentTotalLength) future := by
      refine hrelays.after hcounters rfl rfl ⟨q, rfl, hs⟩ trivial ?_ hrelays.total_nonneg rfl
      simp only [Rest.marked, List.length_append]
      omega
    exact @RoundSends.trans _ (.tail chunks) (.size chunks) _ _ _ _ _ rfl hcounters
      (roundSends_readSize htakes hsize hsize' (show (raw q).length ≤ h.context.buffer.length by omega) hpos)

/-- A round of the chunked reader. -/
theorem roundSends_readRound {rest : Rest} {h : Handler} {future : List (Byte × Bool)}
    (hrelays : Relays size rest h future) (hchunked : rest.isChunked = true)
    (hne : h.context.buffer ≠ []) :
    RoundSends size rest h future h.context.buffer.length (readRound sys h) := by
  have hpos := List.length_pos_iff.mpr hne
  cases rest with
  | content todo => cases hchunked
  | tail chunks => exact roundSends_readTail htakes hsize hrelays hne
  | size chunks =>
    have hcounter : h.request.contentLength = -1 := hrelays.counter
    have hok : readEndOfChunk h = .ok h := if_neg (by rw [hcounter]; decide)
    rw [readRound_of_ok hok]
    exact roundSends_readSize htakes hsize hrelays le_rfl hpos
  | data todo chunks =>
    have hcounter : h.request.contentLength = todo.length := hrelays.counter
    have hdata := List.length_pos_iff.mpr hrelays.proper.1
    have hok : readEndOfChunk h = .ok h := if_neg (by rw [hcounter]; omega)
    have hline : readChunkSize sys h = .ok h := if_neg (by rw [hcounter]; omega)
    have hgo : ((.ok h : Round) >>= readChunk sys) = readChunk sys h := pure_bind _ _
    rw [readRound_of_ok hok, hline, hgo]
    exact roundSends_readChunk htakes hsize hrelays hpos le_rfl

omit htakes hsize in
/-- Nothing is there to be read: the whole rest is still to come. -/
theorem CallSends.of_nil {rest : Rest} {h : Handler} {future : List (Byte × Bool)}
    (hrelays : Relays size rest h future) (hnil : h.context.buffer = []) :
    CallSends size rest h future (.reqContinue, h) := by
  refine @CallSends.waits _ _ _ _ rest h [] hrelays ?_ rfl (.refl h)
  obtain ⟨p, hraw, hstream⟩ := hrelays.stream
  intro hfuture
  rw [hnil] at hraw
  rw [List.map_eq_nil_iff.mp hraw, hfuture] at hstream
  exact Rest.marked_ne_nil hrelays.proper hstream

/-- The loop of the chunked reader, by induction on its rounds, each of which takes at least one unread
byte. -/
theorem callSends_readChunkedLoop (n : Nat) {rest : Rest} {h : Handler} {future : List (Byte × Bool)}
    (hrelays : Relays size rest h future) (hchunked : rest.isChunked = true)
    (hn : h.context.buffer.length ≤ n) : CallSends size rest h future (readChunkedLoop sys n h) := by
  induction n generalizing rest h with
  | zero => exact .of_nil hrelays (List.eq_nil_of_length_eq_zero (by omega))
  | succ n ih =>
    by_cases hbuffer : h.context.buffer = []
    · rw [readChunkedLoop_of_nil sys _ hbuffer]
      exact .of_nil hrelays hbuffer
    · rw [readChunkedLoop, if_neg hbuffer]
      have hround := roundSends_readRound htakes hsize hrelays hchunked hbuffer
      generalize readRound sys h = r at hround ⊢
      cases hround with
      | returns hcall => exact hcall
      | goesOn hrelays₁ hbody hsends hless =>
        have hchunked₁ := hrelays₁.chunked
        obtain ⟨f, rfl⟩ := hsends.fields
        have hsame : h.request.chunked = true := hrelays.chunked.trans hchunked
        exact (ih hrelays₁ (hchunked₁.symm.trans hsame) (by omega)).trans hbody hsends

omit hsize in
/-- The reader of a body with a length: it counts down, and every byte that it takes is sent. -/
theorem callSends_readContent {todo : Bytes} {h : Handler} {future : List (Byte × Bool)}
    (hrelays : Relays size (.content todo) h future) :
    CallSends size (.content todo) h future (readContent sys h) := by
  obtain ⟨p, hraw, hstream⟩ := hrelays.stream
  obtain ⟨hne, hint⟩ := hrelays.proper
  have hcounter : h.request.contentLength = todo.length := hrelays.counter
  obtain ⟨-, hfuture, htodo⟩ := mark_eq_append hstream
  rw [hraw] at htodo
  have hlength : todo.length = h.context.buffer.length + (raw future).length := by
    rw [htodo, List.length_append]
  have hle : todo.length ≤ size := by
    have hle := hrelays.length
    rwa [Rest.marked, length_mark] at hle
  have hfits : toInt32 (h.request.contentLength - toInt32 h.context.buffer.length) ≥ 0 := by
    rw [hcounter, toInt32_of_range (z := h.context.buffer.length) (by omega) (by omega),
      toInt32_of_range (by omega) (by omega)]
    omega
  unfold readContent
  rw [if_pos hfits, writeChunk_of_cgi hrelays.cgiPath hrelays.socket (htakes.mono (by omega)) le_rfl]
  dsimp only
  rw [consumeBuffer_sendAll hcounter hint (by omega)]
  have hsends := sends_sendAll_withCounters h h.context.buffer.length []
    ↑(todo.length - h.context.buffer.length) h.request.contentTotalLength
  rw [List.take_of_length_le le_rfl] at hsends
  by_cases hend : raw future = []
  · have hzero : todo.length - h.context.buffer.length = 0 := by
      rw [hlength, hend, List.length_nil]
      omega
    have hbody : (Rest.content todo).body = h.context.buffer := by
      rw [htodo, hend, List.append_nil]
      rfl
    rw [hzero] at hsends ⊢
    have hcounted : (withCounters (h.sendAll h.context.buffer.length) [] ((0 : Nat) : Int)
        h.request.contentTotalLength).request.contentLength = 0 := rfl
    rw [if_pos hcounted]
    exact .of_saveFile (by rw [hbody]; exact hsends) hrelays.cgiPath
  · have hpos := List.length_pos_iff.mpr hend
    rw [if_neg (show (withCounters (h.sendAll h.context.buffer.length) []
      (↑(todo.length - h.context.buffer.length) : Int) _).request.contentLength ≠ 0 by
        show (↑(todo.length - h.context.buffer.length) : Int) ≠ 0
        omega)]
    refine @CallSends.waits _ _ _ _ (.content (raw future)) _ h.context.buffer ?_ ?_ htodo hsends
    · refine hrelays.after hsends rfl ?_ ⟨[], rfl, hfuture.symm⟩ ⟨hend, by omega⟩ ?_
        hrelays.total_nonneg rfl
      · rw [hlength, Nat.add_sub_cancel_left]
        rfl
      · simp only [Rest.marked, length_mark]
        omega
    · intro hnil
      rw [hnil] at hend
      exact hend rfl

/-- **What a call of a reader does** at a rest of the body, with a CGI: it sends the data that it gets, and
the last call closes the input. -/
theorem callSends_readBody {rest : Rest} {h : Handler} {future : List (Byte × Bool)}
    (hrelays : Relays size rest h future) : CallSends size rest h future (readBody sys h) := by
  unfold readBody
  rw [hrelays.chunked]
  cases rest with
  | content todo => exact callSends_readContent htakes hrelays
  | _ => exact callSends_readChunkedLoop htakes hsize _ hrelays rfl le_rfl

end Reading

end Handler
end Webserv
