import Webserv.ResponseStream

/-!
# The head before the body

A head is rendered only where `CGI_IN` is complete.  With a custom error page and no request object nobody
completes it, so the page is sent without a head.  A head that is half sent can also be cut off by the next
one.  Everywhere else the stream begins with a head.

* `HeadFirst`: the stream is empty, or it begins with a head that was rendered.
* `headFirst_run`: the stream begins with a head, in every run without these two steps.
* `not_headFirst`: a custom page for 404 is sent without a head.

## Why a page can come without its head

The end of `_handleSocketIn` renders when the flag for the input from a CGI is set, and leaves the rendering
to the CGI when it is not.  The flag is set by the constructor of the request object, or by the built-in
error page, which completes all work.  A request that is refused before it has an object, and whose error
page is a file, gets neither.  The switch to writing happens all the same, and the output then consists of
the blocks of the file.  `SendsBodyBeforeHead` is the step that puts the first of them into the stream.

## Why a head that is cut is excluded

A step that overwrites the buffer while a part of a head was sent leaves that part in front of another head,
and the stream begins with neither.  If the whole head was sent, the first response is still at the front
and the statement holds; so `CutsHead` asks for a head that was sent in part.  Such steps are the matter of
`ResponseStream`.

The invariant is kept by a step that extends the stream, since what begins with a head still does, and by
one that replaces what waits to be sent, since what was sent is empty or has a whole head in it.
-/

namespace Webserv
namespace Client

/-- The stream is empty, or it begins with a head that was rendered. -/
def HeadFirst (c : Client) : Prop :=
  c.output = [] ∧ c.context.world.heads = [] ∨
    ∃ r ∈ c.context.world.heads, Response.head r <+: c.output

/-- A part of a head was sent, and the step overwrites the rest of it. -/
def CutsHead (c : Client) (e : Event) : Prop :=
  c.Overwrites e ∧ c.context.world.sent ≠ [] ∧
    ¬ ∃ r ∈ c.context.world.heads, Response.head r <+: c.context.world.sent

/-- The step sends no body byte for which no head was rendered, and cuts no head. -/
def SendsHeadFirst (c : Client) (e : Event) : Prop :=
  c.closed = false → ¬ c.SendsBodyBeforeHead e ∧ ¬ c.CutsHead e

theorem Extends.headFirst {c c' : Client} {data : Bytes} (h : c.Extends c' data) (hc : HeadFirst c)
    (hdata : data ≠ [] → c.context.world.heads ≠ []) : HeadFirst c' := by
  rw [HeadFirst, h.output, h.heads]
  rcases hc with ⟨houtput, hheads⟩ | ⟨r, hr, hprefix⟩
  · left
    refine ⟨?_, hheads⟩
    by_contra hne
    rw [houtput, List.nil_append] at hne
    exact hdata hne hheads
  · exact Or.inr ⟨r, hr, hprefix.trans (List.prefix_append _ _)⟩

/-- A step that sends the head first.  Once a byte was sent the head is a prefix of the stream, and
appending keeps it one. -/
theorem HeadFirst.step {c : Client} (hc : HeadFirst c) (hphase : Phase c) {e : Event}
    (hsends : c.SendsHeadFirst e) : HeadFirst (c.step e) := by
  cases hclosed : c.closed with
  | true =>
    have hstep : c.step e = c := if_pos hclosed
    rw [hstep]
    exact hc
  | false =>
    obtain ⟨hbody, hcuts⟩ := hsends hclosed
    rcases (phase_step hphase e).2 with ⟨data, hextends, hdata⟩ |
      ⟨⟨hsent, r, data, hbuffer, hheads⟩, hcond⟩
    · exact hextends.headFirst hc fun hne => (hdata hne).resolve_right hbody
    · right
      rw [Client.output, hbuffer, hsent, hheads, Response.response_eq]
      by_cases hnil : c.context.world.sent = []
      · refine ⟨r, List.mem_append_right _ (List.mem_singleton.mpr rfl), ?_⟩
        rw [hnil, List.nil_append, List.append_assoc]
        exact List.prefix_append _ _
      · -- something was sent, so a whole head was
        have houtput : c.output ≠ [] := fun h => hnil (List.append_eq_nil_iff.mp h).1
        have hwhole : ∃ r ∈ c.context.world.heads, Response.head r <+: c.context.world.sent := by
          by_contra hnot
          exact hcuts ⟨hcond.resolve_left houtput, hnil, hnot⟩
        obtain ⟨r₀, hr₀, hprefix⟩ := hwhole
        exact ⟨r₀, List.mem_append_left _ hr₀, hprefix.trans (List.prefix_append _ _)⟩

/-- **The stream begins with a head** in every run whose steps send no page without a head and
overwrite no head that is partly sent; and without a head nothing is sent. -/
theorem headFirst_run (server : Server) (fs : FileSystem) (connectSocket fd : Fd) (now : Int)
    (es : List Event)
    (hsends : Transition.Along step SendsHeadFirst (init server fs connectSocket fd now) es) :
    let c := (init server fs connectSocket fd now).run es
    (c.context.world.sent ≠ [] →
        ∃ r ∈ c.context.world.heads, Response.head r <+: c.output) ∧
      (c.context.world.heads = [] → c.output = []) := by
  have hrun : Phase ((init server fs connectSocket fd now).run es) ∧
      HeadFirst ((init server fs connectSocket fd now).run es) :=
    @Transition.run_invariant _ _ step SendsHeadFirst (fun c => Phase c ∧ HeadFirst c)
      (fun _ e hc hs => ⟨(phase_step hc.1 e).1, hc.2.step hc.1 hs⟩) es _
      ⟨Or.inr (Or.inl (awaitsHead_init server fs connectSocket fd now)), Or.inl ⟨rfl, rfl⟩⟩ hsends
  intro c
  rcases hrun.2 with ⟨houtput, hheads⟩ | ⟨r, hr, hprefix⟩
  · exact ⟨fun hsent => absurd (List.append_eq_nil_iff.mp houtput).1 hsent, fun _ => houtput⟩
  · refine ⟨fun _ => ⟨r, hr, hprefix⟩, fun hnil => ?_⟩
    rw [hnil] at hr
    cases hr

set_option maxRecDepth 10000 in
/-- The file is requested, and the first bytes of the response are sent. -/
theorem headFirst_run_file :
    let c := fileClient.run [.clientIn (.receiving fileRequest), .clientOut (.quiet 0)]
    c.context.world.sent = bytes "H" ∧
      (c.context.world.sent ≠ [] →
        ∃ r ∈ c.context.world.heads, Response.head r <+: c.output) ∧
      (c.context.world.heads = [] → c.output = []) :=
  ⟨by decide, headFirst_run _ fileSystem 3 4 0
    [.clientIn (.receiving fileRequest), .clientOut (.quiet 0)]
    ⟨fun _ => ⟨id, fun hcuts => hcuts.2.1 rfl⟩,
      fun _ => ⟨fun hbody => absurd hbody.2.2.1 (by decide), fun hcuts => hcuts.1⟩, trivial⟩⟩

/-! ## A page without a head -/

/-- A server without locations, and with a page of its own for 404. -/
def pageBlock : ServerBlock where
  errorPages := OrderedMap.empty.insert statusNotFound (Path.ofString (bytes "/e"))

def pageClient : Client :=
  init (.single 3 pageBlock fun _ => 0)
    { table := fun p => if p = bytes "/e" then some { kind := .regular (bytes "gone") } else none } 3 4 0

set_option maxRecDepth 10000 in
/-- The first byte sent is the first byte of the page, and no head was rendered. -/
theorem not_headFirst :
    let c := pageClient.run [.clientIn (.receiving fileRequest), .clientOut (.quiet 0)]
    c.context.world.sent = bytes "g" ∧ c.context.world.heads = [] ∧
      ¬ ∃ r ∈ c.context.world.heads, Response.head r <+: c.output := by
  refine ⟨by decide, rfl, ?_⟩
  rintro ⟨r, hr, -⟩
  have hnil : (pageClient.run
    [.clientIn (.receiving fileRequest), .clientOut (.quiet 0)]).context.world.heads = [] := rfl
  rw [hnil] at hr
  cases hr

end Client
end Webserv
