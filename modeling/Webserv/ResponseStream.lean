import Webserv.Phases

/-!
# The response stream

What was sent on the client socket and what waits to be sent form one stream.  The socket handler, the
timeouts and the CGI reader all assign the buffer instead of appending to it, so the stream only grows as
long as no such assignment is reached while a response is there.

* `StreamIntact`: the stream has only grown, and no head was rendered into it.
* `streamIntact_iff`: the runs in which the stream only grows are those whose steps do not overwrite it.
* `not_streamIntact`: one more byte from the client replaces a response that is half sent.

## Why the heads are counted at the render

A stream that only grows may still have two heads in it.  The bytes do not tell: a body may look like a
head, and a head that was overwritten may have left a part of itself.  So the record keeps every response
whose head was put into the buffer, when it is put there.  A second entry is a second assignment, whether or
not the two heads are both in the output afterwards; usually the first is cut off by the second.  The
statement that there is one entry at most is therefore the stronger one: one head was rendered in the whole
run, and by the other half it is still there.

## Where the stream is overwritten

Three places assign the buffer while it may hold something.  `_handleSocketIn` goes through its end for
every packet of the client, since nothing marks a request as read when it was accepted.  The timeout of the
body and that of the sending render an error in place of whatever waits.  The assignment of the CGI's head
comes before all its output.  `LeavesStream` excludes exactly the first three, for a client with output, and
each of them does overwrite (`heads_of_overwrites`).
-/

namespace Webserv
namespace Client

/-- The stream of the first client is a part of the stream of the second, and from the first byte on no
other head was rendered.  `heads` counts the responses that were put into the buffer, and not the heads that
are left in the output. -/
structure StreamIntact (c c' : Client) : Prop where
  output : c.output <+: c'.output
  heads : c.output ≠ [] → c'.context.world.heads = c.context.world.heads

/-- The step does not put a response in the place of one that is there. -/
def LeavesStream (c : Client) (e : Event) : Prop :=
  c.closed = false → c.output ≠ [] → ¬ c.Overwrites e

theorem StreamIntact.refl (c : Client) : StreamIntact c c := ⟨List.prefix_refl _, fun _ => rfl⟩

/-- A stream that grew, and then grew more. -/
theorem StreamIntact.trans {c₁ c₂ c₃ : Client} (h₁ : StreamIntact c₁ c₂) (h₂ : StreamIntact c₂ c₃) :
    StreamIntact c₁ c₃ where
  output := h₁.output.trans h₂.output
  heads := by
    intro hne
    have hne₂ : c₂.output ≠ [] := fun hnil => hne (List.prefix_nil.mp (hnil ▸ h₁.output))
    rw [h₂.heads hne₂, h₁.heads hne]

theorem Extends.streamIntact {c c' : Client} {data : Bytes} (h : c.Extends c' data) :
    StreamIntact c c' where
  output := by
    rw [h.output]
    exact List.prefix_append _ _
  heads := fun _ => h.heads

/-- A step that leaves the stream alone.  By cases on the phase, of which only the last has a stream to
lose. -/
theorem streamIntact_step {c : Client} (h : Phase c) {e : Event} (hleaves : c.LeavesStream e) :
    StreamIntact c (c.step e) := by
  cases hclosed : c.closed with
  | true =>
    have hstep : c.step e = c := if_pos hclosed
    rw [hstep]
    exact .refl c
  | false =>
    rcases (phase_step h e).2 with ⟨data, hextends, -⟩ | ⟨-, hcond⟩
    · exact hextends.streamIntact
    · have houtput : c.output = [] := by
        by_contra hne
        exact hleaves hclosed hne (hcond.resolve_left hne)
      exact ⟨by rw [houtput]; exact List.nil_prefix, fun hne => absurd houtput hne⟩

/-- A run whose steps leave the stream alone, by induction on the run: the two parts of the stream are
transitive. -/
theorem streamIntact_run {c : Client} (h : Phase c) {es : List Event}
    (hleaves : Transition.Along step LeavesStream c es) : StreamIntact c (c.run es) :=
  Transition.run_rel StreamIntact.refl (fun _ _ _ => StreamIntact.trans)
    (fun _ e hc _ => (phase_step hc e).1) (fun _ _ hc hl => streamIntact_step hc hl) h hleaves

/-- A step that overwrites renders one more head, and so what was waiting is not a part of the output that
grew. -/
theorem heads_of_overwrites {c : Client} (h : Phase c) (hclosed : c.closed = false)
    (hne : c.output ≠ []) {e : Event} (ho : c.Overwrites e) :
    (c.step e).output ≠ [] ∧ (c.step e).context.world.heads ≠ c.context.world.heads := by
  rcases h with hc | hhead | hbody | hresponds
  · rw [hclosed] at hc
    cases hc
  · exact absurd hhead.output hne
  · exact absurd hbody.output hne
  · obtain ⟨-, r, data, hbuffer, hheads⟩ := replaces_of_overwrites hresponds hclosed ho
    refine ⟨?_, ?_⟩
    · rw [Client.output, hbuffer, Response.response_eq]
      simp [Response.head_ne_nil]
    · rw [hheads]
      simp

/-- At most one head was rendered, and none while there is no output. -/
structure OneHead (c : Client) : Prop where
  phase : Phase c
  length_heads_le : c.context.world.heads.length ≤ 1
  heads : c.output = [] → c.context.world.heads = []

/-- A step that leaves the stream alone renders a head only into an empty stream. -/
theorem OneHead.step {c : Client} (h : OneHead c) {e : Event} (hleaves : c.LeavesStream e) :
    OneHead (c.step e) := by
  obtain ⟨hphase, hstreams⟩ := phase_step h.phase e
  cases hclosed : c.closed with
  | true =>
    have hstep : c.step e = c := if_pos hclosed
    rw [hstep]
    exact h
  | false =>
    rcases hstreams with ⟨data, hextends, -⟩ | ⟨⟨-, r, data, hbuffer, hheads⟩, hcond⟩
    · refine ⟨hphase, by rw [hextends.heads]; exact h.length_heads_le, ?_⟩
      rw [hextends.output, hextends.heads]
      exact fun hnil => h.heads (List.append_eq_nil_iff.mp hnil).1
    · have houtput : c.output = [] := by
        by_contra hne
        exact hleaves hclosed hne (hcond.resolve_left hne)
      refine ⟨hphase, ?_, ?_⟩
      · rw [hheads, h.heads houtput]
        exact le_rfl
      · rw [Client.output, hbuffer, Response.response_eq]
        simp [Response.head_ne_nil]

/-- **The response stream only grows, and gets one head, exactly as long as no step overwrites it**:
once there is output, no byte of the client makes the socket handler render again, the body timeout
does not fire, and the send timeout does not fire for a request whose CGI has not spoken. -/
theorem streamIntact_iff (server : Server) (fs : FileSystem) (connectSocket fd : Fd) (now : Int)
    (es : List Event) :
    ((∀ before after, es = before ++ after →
          StreamIntact ((init server fs connectSocket fd now).run before)
            ((init server fs connectSocket fd now).run es)) ∧
        ((init server fs connectSocket fd now).run es).context.world.heads.length ≤ 1) ↔
      Transition.Along step LeavesStream (init server fs connectSocket fd now) es := by
  have hinit : Phase (init server fs connectSocket fd now) :=
    Or.inr (Or.inl (awaitsHead_init server fs connectSocket fd now))
  constructor
  · rintro ⟨hintact, -⟩
    rw [Transition.along_iff]
    rintro before e after rfl hclosed hne ho
    have hstep : (init server fs connectSocket fd now).run (before ++ [e]) =
        ((init server fs connectSocket fd now).run before).step e := Transition.run_append ..
    obtain ⟨houtput, hheads⟩ := heads_of_overwrites (phase_run hinit before) hclosed hne ho
    rw [← hstep] at houtput hheads
    have hfirst := (hintact before (e :: after) rfl).heads hne
    have hsecond := (hintact (before ++ [e]) after (by simp)).heads houtput
    exact hheads (hsecond.symm.trans hfirst)
  · intro hleaves
    refine ⟨?_, ?_⟩
    · rintro before after rfl
      have happend : (init server fs connectSocket fd now).run (before ++ after) =
          ((init server fs connectSocket fd now).run before).run after := Transition.run_append ..
      rw [happend]
      exact streamIntact_run (phase_run hinit before) (Transition.along_append.mp hleaves).2
    · have hone : OneHead ((init server fs connectSocket fd now).run es) :=
        @Transition.run_invariant _ _ step LeavesStream OneHead (fun _ _ hc hl => hc.step hl) es _
          ⟨hinit, Nat.zero_le _, fun _ => rfl⟩ hleaves
      exact hone.length_heads_le

/-! ## A response that is replaced -/

/-- A location with one file, for GET. -/
def fileLocation : LocationBlock where
  path := Path.ofString (bytes "/")
  root := Path.ofString (bytes "/r/")
  allowed := 1

def fileSystem : FileSystem :=
  { table := fun p => if p = bytes "/r/a" then some { kind := .regular (bytes "abc") } else none }

/-- A client of the location, without timeouts. -/
def fileClient : Client :=
  init (.single 3 { locations := [fileLocation] } fun _ => 0) fileSystem 3 4 0

/-- A request for the file. -/
def fileRequest : Bytes := bytes "GET /a HTTP/1.1\r\nHost: h\r\n\r\n"

set_option maxRecDepth 10000 in
/-- One byte of the response was sent when one more byte of the client arrives: the head is rendered
again over the rest of it. -/
theorem not_streamIntact :
    let c := fileClient.run [.clientIn (.receiving fileRequest), .clientOut (.quiet 0)]
    c.context.world.sent = bytes "H" ∧
      ¬ c.output <+: (c.step (.clientIn (.receiving (bytes "x")))).output := by
  decide

end Client
end Webserv
