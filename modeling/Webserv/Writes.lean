import Webserv.Crashes
import Webserv.Footprint

/-!
# What the server may write

A client can make the server change a file only by a request that the configuration lets through.  The
name is then one that its location lets a request of this kind write.  That is so for every client, in
whatever order the clients are served, and whatever other processes do to the files in between.

* `Server.Grants`: what `_resolveARequest` looks at before it executes a request.
* `Server.permits`: the names that some request may write.
* `Client.Granted`: the client's request was granted, and its readers know names of its location only.
* `permits_acts`: no turn of a server changes anything else, and no destructor of a client does.

## Names and entries

`Server.permits` is a set of names, because names are what the configuration and the request make: a root or
an upload directory with a piece of the target behind it.  What changes on the disk is another matter.  The
target may hold `..`, and the program hands it to the kernel as it is, so that DELETE of `/../x` below the
root `/r/` removes the file `/x`, whose own name no request is permitted.  `ChangesIn` therefore speaks of the
entries that the kernel finds for the permitted names, in the file system as it is when the turn begins; the
witness is that request.

## Why the request carries its permission

The readers and the destructor work on the names in the request object, turns after the request was let
through, when the configuration is not looked at any more.  So permission is an invariant of the client:
`Authorized` keeps the location and the kind that were granted beside the object that was built for them, and
`BodyNames` says which of its names a reader may come to.  Only `_resolveARequest` makes such an object, and
nothing changes its names afterwards (`SameNames`).
-/

namespace Webserv

open FileSystem

/-- The configuration lets a request of this kind, for this target, through to the location. -/
structure Server.Grants (server : Server) (loc : LocationBlock) (kind : RequestKind) (target : Bytes) :
    Prop where
  found : ∃ socket host block, server.findServerBlock socket host = some block ∧
    block.findLocationBlock (Path.ofString target) = some loc
  allowed : ∃ method, Client.requestKind method = some kind ∧ loc.isAllowed method = true
  root : loc.root.isEmpty = false
  redirection : loc.redirection.1 = statusNone

/-- The names that some request may write: through any location, of any target, as the program would put
them together. -/
def Server.permits (server : Server) : Set Bytes :=
  {p | ∃ loc kind target, server.Grants loc kind target ∧ loc.Writes kind target p}

theorem Server.Grants.subset {server : Server} {loc : LocationBlock} {kind : RequestKind} {target : Bytes}
    (h : server.Grants loc kind target) : {p | loc.Writes kind target p} ⊆ server.permits :=
  fun _ hp => ⟨loc, kind, target, h, hp⟩

/-- The fields of a request object that name what it reads and writes. -/
def ARequest.names (r : ARequest) : RequestKind × Path × Option Path × Path :=
  (r.kind, r.path, r.cgiPath, r.tmpFilename)

namespace Client

/-! ## What no call writes once the request is there -/

/-- The request object has the same names, for the same target at the same location. -/
structure SameNames (c c' : Client) : Prop where
  server : c'.context.server = c.context.server
  ruleBlock : c'.context.ruleBlock = c.context.ruleBlock
  target : c'.context.target = c.context.target
  cgiSocket : c'.context.cgiSocket = c.context.cgiSocket
  workIn : c.context.requestState.workIn = true → c'.context.requestState.workIn = true
  names : c'.request.map ARequest.names = c.request.map ARequest.names

namespace SameNames

variable {c c₁ c₂ c₃ : Client}

@[simp] theorem refl (c : Client) : SameNames c c := ⟨rfl, rfl, rfl, rfl, id, rfl⟩

theorem trans (h₁₂ : SameNames c₁ c₂) (h₂₃ : SameNames c₂ c₃) : SameNames c₁ c₃ where
  server := h₂₃.server.trans h₁₂.server
  ruleBlock := h₂₃.ruleBlock.trans h₁₂.ruleBlock
  target := h₂₃.target.trans h₁₂.target
  cgiSocket := h₂₃.cgiSocket.trans h₁₂.cgiSocket
  workIn := h₂₃.workIn ∘ h₁₂.workIn
  names := h₂₃.names.trans h₁₂.names

theorem exists_request (h : SameNames c₁ c₂) {r₂ : ARequest} (hr : c₂.request = some r₂) :
    ∃ r₁, c₁.request = some r₁ ∧ r₂.names = r₁.names := by
  have hnames := h.names
  rw [hr] at hnames
  obtain ⟨r₁, hr₁, heq⟩ := Option.map_eq_some_iff.mp hnames.symm
  exact ⟨r₁, hr₁, heq.symm⟩

theorem rule (h : SameNames c₁ c₂) : c₂.context.rule = c₁.context.rule := by
  rw [RequestContext.rule, RequestContext.rule, h.ruleBlock]

end SameNames

theorem Idles.sameNames {c c' : Client} (h : Idles c c') : SameNames c c' := by
  have hnames := congrArg (Option.map ARequest.names) h.request
  simp only [Option.map_map] at hnames
  have hworkIn := h.flags.workIn
  obtain ⟨f, rfl⟩ := h.fields
  exact ⟨rfl, rfl, rfl, rfl, hworkIn, hnames⟩

theorem sameNames_readBody {c : Client} {h : Handler} (sys : Sys) (hrequest : c.request = some h.request)
    (hcontext : c.context = h.context) : SameNames c (c.withHandler (Handler.readBody sys h).2) := by
  have hreads := Handler.reads_readBody sys h
  have hworkIn := hreads.le.workIn
  generalize (Handler.readBody sys h).2 = h' at hreads hworkIn ⊢
  obtain ⟨f, rfl⟩ := hreads.fields
  rw [← hcontext] at hworkIn
  refine ⟨?_, ?_, ?_, ?_, hworkIn, ?_⟩
  · show h.context.server = c.context.server
    rw [hcontext]
  · show h.context.ruleBlock = c.context.ruleBlock
    rw [hcontext]
  · show h.context.target = c.context.target
    rw [hcontext]
  · show h.context.cgiSocket = c.context.cgiSocket
    rw [hcontext]
  · rw [hrequest]
    rfl

theorem sameNames_handleRequest (c : Client) (sys : Sys) : SameNames c (c.handleRequest sys).2 := by
  unfold handleRequest
  cases hrequest : c.request with
  | none => exact (idles_startResponse c sys).sameNames
  | some r =>
    dsimp only
    split_ifs
    · exact (idles_startResponse c sys).sameNames
    · have htouch := (idles_touch c .clientBody sys.now).sameNames
      have hbody : SameNames (c.touch .clientBody sys.now) ((c.touch .clientBody sys.now).withHandler
          (Handler.workIn sys ⟨(c.touch .clientBody sys.now).context, r⟩).2) := by
        unfold Handler.workIn
        cases r.kind with
        | post | put => exact sameNames_readBody sys hrequest rfl
        | get | delete | head => exact ⟨rfl, rfl, rfl, rfl, id, congrArg (Option.map _) hrequest.symm⟩
      generalize Handler.workIn sys ⟨(c.touch .clientBody sys.now).context, r⟩ = x at hbody ⊢
      obtain ⟨ret, h⟩ := x
      cases ret with
      | reqDone => exact (htouch.trans hbody).trans (idles_startResponse _ sys).sameNames
      | reqContinue | reqError | throws => exact htouch.trans hbody

theorem Read.sameNames {c c₁ c₂ : Client} {e : Event} (hread : Read c e c₁ c₂) : SameNames c₁ c₂ := by
  cases hread with
  | same => exact .refl c₁
  | called c₃ hcall hkind hready hidles hrequest hcontext =>
    exact hidles.sameNames.trans (sameNames_readBody _ hrequest hcontext)

/-! ## The request is granted -/

/-- The request object was built for a request that the configuration lets through. -/
structure Authorized (server : Server) (c : Client) : Prop where
  server_eq : c.context.server = server
  grants : ∀ r, c.request = some r →
    ∃ loc, c.context.ruleBlock = some loc ∧ server.Grants loc r.kind c.context.target

variable {server : Server} {c c' : Client}

theorem Authorized.sameNames (h : Authorized server c) (hsame : SameNames c c') : Authorized server c' where
  server_eq := hsame.server.trans h.server_eq
  grants r' hr' := by
    obtain ⟨r, hr, hnames⟩ := hsame.exists_request hr'
    have hkind : r'.kind = r.kind := congrArg Prod.fst hnames
    rw [hsame.ruleBlock, hsame.target, hkind]
    exact h.grants r hr

/-- `_resolveARequest` executes what is granted only: the CGI of the location, and DELETE where the location
allows it. -/
theorem authorized_resolveARequest (hserver : c.context.server = server) (hnone : c.request = none)
    (sys : Sys) : Authorized server (c.resolveARequest sys).2 := by
  have hbuilds := (builds_resolveARequest hnone sys).kind
  have hresolves := resolves_resolveARequest c sys
  generalize c.resolveARequest sys = result at hbuilds hresolves
  have hempty : ∀ {c' : Client}, c'.context.server = server → c'.request = none → Authorized server c' := by
    intro c' hserver' hnone'
    refine ⟨hserver', fun r hr => ?_⟩
    rw [hnone'] at hr
    cases hr
  cases hresolves with
  | noServer | noTarget | answers | redirects => exact hempty hserver hnone
  | @creates block loc kind h hfinds hkind hcreate =>
    obtain ⟨⟨h₀, hctx, f, hf⟩, hkindEq, -⟩ := Handler.started_processing sys hcreate
    -- the same look-ups, with what is checked between them
    unfold builds at hbuilds
    rw [hfinds.serverBlock] at hbuilds
    dsimp only at hbuilds
    rw [hfinds.ruleBlock] at hbuilds
    dsimp only at hbuilds
    subst hserver
    have hcontext : (h.processing sys).context.server = c.context.server ∧
        (h.processing sys).context.ruleBlock = some loc ∧
          (h.processing sys).context.target = c.context.target := by
      rw [hf]
      refine ⟨?_, ?_, ?_⟩
      · show h₀.context.server = c.context.server
        rw [hctx]
        rfl
      · show h₀.context.ruleBlock = some loc
        rw [hctx]
        rfl
      · show h₀.context.target = c.context.target
        rw [hctx]
        rfl
    refine ⟨hcontext.1, fun r hr => ?_⟩
    obtain rfl : (h.processing sys).request = r := Option.some.inj hr
    refine ⟨loc, hcontext.2.1, ?_⟩
    dsimp only [withHandler]
    rw [hkindEq, hcontext.2.2]
    split_ifs at hbuilds with hroot hallowed hredirect
    · cases hbuilds
    · cases hbuilds
    · exact ⟨⟨_, _, _, hfinds.serverBlock, hfinds.ruleBlock⟩, ⟨_, hkind, hallowed⟩,
        Bool.eq_false_iff.mpr hroot, not_not.mp hredirect⟩
    · cases hbuilds

theorem Authorized.step (h : Authorized server c) (hphase : Phase c) (e : Event) :
    Authorized server (c.step e) := by
  have hserver := server_step hphase e
  rcases resolution_step hphase e with ⟨-, hretains⟩ | ⟨-, sys, c₁, hcall, hexecutes⟩
  · have heffect := effect_step hphase e
    generalize c.step e = c' at hretains heffect hserver ⊢
    cases heffect with
    | environment he => exact ⟨h.server_eq, h.grants⟩
    | headOnly hhead hcall hrequest =>
      refine ⟨hserver.trans h.server_eq, fun r hr => ?_⟩
      rw [hrequest] at hr
      cases hr
    | request hcreated hread hidles =>
      have hsame := hread.sameNames.trans hidles.sameNames
      cases hcreated with
      | same => exact h.sameNames hsame
      | created sys hhead =>
        -- the request object is not a new one
        have hkind := hretains.kind
        rw [hhead.request] at hkind
        have hnames := hsame.names
        cases hr' : c'.request with
        | none =>
          rw [hr'] at hnames
          cases hnames
        | some r' =>
          rw [hr'] at hkind
          cases hkind
  · obtain ⟨c₀, hunread, hstep, hparse⟩ := hexecutes.parses
    have hresolves := @authorized_resolveARequest c₁.context.server c₁ rfl hexecutes.accepted.request sys
    have hsettled : Authorized c₁.context.server (c.step e) := by
      rw [hstep, Client.handleRead, if_neg hunread, hparse]
      generalize c₁.resolveARequest sys = result at hresolves ⊢
      obtain ⟨ret, c₂⟩ := result
      cases ret with
      | reqContinue =>
        have hset : SameNames c₂ (c₂.setState RequestState.setWorkInComplete) :=
          ⟨rfl, rfl, rfl, rfl, fun _ => rfl, rfl⟩
        have hsame := hset.trans (sameNames_handleRequest (c₂.setState RequestState.setWorkInComplete) sys)
        exact hresolves.sameNames (hsame.trans (idles_closed _ _).sameNames)
      | reqDone =>
        have hsame := sameNames_handleRequest c₂ sys
        exact hresolves.sameNames (hsame.trans (idles_closed _ _).sameNames)
      | reqError | throws => exact hresolves.sameNames (idles_closed c₂ _).sameNames
    have hsame : c₁.context.server = server := hsettled.server_eq.symm.trans (hserver.trans h.server_eq)
    rwa [hsame] at hsettled

/-- The location of a request that was granted, in a client that has the same names. -/
theorem Authorized.grants_of_sameNames (h : Authorized server c') (hsame : SameNames c c') {r : ARequest}
    (hr : c.request = some r) : server.Grants c.context.rule r.kind c.context.target := by
  have hnames := hsame.names
  rw [hr] at hnames
  obtain ⟨r', hr', heq⟩ := Option.map_eq_some_iff.mp hnames
  obtain ⟨loc, hloc, hgrants⟩ := h.grants r' hr'
  have hkind : r'.kind = r.kind := congrArg Prod.fst heq
  have hrule : c.context.rule = loc := by
    rw [RequestContext.rule, ← hsame.ruleBlock, hloc, Option.getD_some]
  rwa [hrule, ← hsame.target, ← hkind]

/-! ## The names that the readers know -/

/-- The upload knows the names of its location; or the body goes to a CGI; or the request was answered
before a file was opened, and no body is read. -/
inductive BodyNames (c : Client) (loc : LocationBlock) (target : Bytes) (r : ARequest) : Prop
  | stores (hstores : r.Stores loc target)
  | relays (hkind : r.kind = .post) (hcgi : r.cgiPath.isSome = true) (htmp : r.tmpFilename = {})
  | answered (htmp : r.tmpFilename = {}) (hsocket : c.context.cgiSocket = -1)
      (hdone : c.context.requestState.workIn = true ∨ c.closed = true)

theorem stores_of_names {loc : LocationBlock} {target : Bytes} {r r' : ARequest} (h : r.Stores loc target)
    (hnames : r'.names = r.names) : r'.Stores loc target := by
  have hpath : r'.path = r.path := congrArg (fun names => names.2.1) hnames
  have htmp : r'.tmpFilename = r.tmpFilename := congrArg (fun names => names.2.2.2) hnames
  exact ⟨h.canUpload, hpath.trans h.path, htmp ▸ h.tmpFilename⟩

theorem BodyNames.sameNames {loc : LocationBlock} {target : Bytes} {r r' : ARequest}
    (h : BodyNames c loc target r) (hopen : c.closed = false) (hsame : SameNames c c')
    (hnames : r'.names = r.names) : BodyNames c' loc target r' := by
  have hkindEq : r'.kind = r.kind := congrArg Prod.fst hnames
  have hcgiEq : r'.cgiPath = r.cgiPath := congrArg (fun names => names.2.2.1) hnames
  have htmpEq : r'.tmpFilename = r.tmpFilename := congrArg (fun names => names.2.2.2) hnames
  cases h with
  | stores hstores => exact .stores (stores_of_names hstores hnames)
  | relays hkind hcgi htmp =>
    exact .relays (hkindEq.trans hkind) (by rw [hcgiEq, hcgi]) (htmpEq.trans htmp)
  | answered htmp hsocket hdone =>
    refine .answered (htmpEq.trans htmp) (hsame.cgiSocket.trans hsocket) (Or.inl (hsame.workIn ?_))
    refine hdone.resolve_right ?_
    rw [hopen]
    exact Bool.false_ne_true

/-- The request was granted, and what reads its body knows names of its location only. -/
structure Granted (server : Server) (c : Client) : Prop extends Authorized server c where
  body : ∀ r, c.request = some r → r.kind = .put ∨ r.kind = .post →
    BodyNames c c.context.rule c.context.target r

/-- A reader writes names of the location of its request only. -/
theorem Read.changesIn {c₁ c₂ : Client} {e : Event} (hread : Read c e c₁ c₂) (hopen : c₁.closed = false)
    (hgrants : ∀ r, c₁.request = some r → server.Grants c₁.context.rule r.kind c₁.context.target)
    (hbody : ∀ r, c₁.request = some r → r.kind = .put ∨ r.kind = .post →
      BodyNames c₁ c₁.context.rule c₁.context.target r) :
    ChangesIn server.permits c₁.context.world.fs c₂.context.world.fs := by
  cases hread with
  | same => exact changesIn_refl _ _
  | @called sys h c₃ hcall hkind hready hidles hrequest hcontext =>
    have hsame := hidles.sameNames
    obtain ⟨r, hr, hnames⟩ := hsame.exists_request hrequest
    have hkindEq : h.request.kind = r.kind := congrArg Prod.fst hnames
    have hcgiEq : h.request.cgiPath = r.cgiPath := congrArg (fun names => names.2.2.1) hnames
    obtain ⟨hrelays, hstores⟩ := Handler.changesIn_readBody sys h
    have hfs : h.context.world.fs = c₁.context.world.fs := by rw [← hcontext, hidles.fs]
    rw [hfs] at hrelays hstores
    rw [hkindEq] at hkind
    have hbodyNames := hbody r hr hkind.symm
    cases hbodyNames with
    | stores hnamed =>
      have hwrites := (stores_of_names hnamed hnames).subset hkind.symm
      exact hstores.mono (hwrites.trans (hgrants r hr).subset)
    | relays _ hcgi => exact changesIn_of_eq (hrelays (by rw [hcgiEq, hcgi]))
    | answered _ hsocket hdone =>
      -- the body of a request that was answered is not read
      rw [← hcontext] at hready
      rcases hdone with hworkIn | hclosed
      · rcases hready with hunset | hne
        · rw [hsame.workIn hworkIn] at hunset
          cases hunset
        · exact absurd (hsame.cgiSocket.trans hsocket) hne
      · rw [hopen] at hclosed
        cases hclosed

/-- The step after the request object is there.  What the readers of the body write is under the names that
`processing` fixed. -/
theorem Granted.of_read {c₁ c₂ : Client} {e : Event} (hread : Read c e c₁ c₂) (hidles : Idles c₂ c')
    (hauth : Authorized server c') (hopen : c₁.closed = false)
    (hbody : ∀ r, c₁.request = some r → r.kind = .put ∨ r.kind = .post →
      BodyNames c₁ c₁.context.rule c₁.context.target r) :
    Granted server c' ∧ ChangesIn server.permits c₁.context.world.fs c'.context.world.fs := by
  have hsame := hread.sameNames.trans hidles.sameNames
  have hchanges := hread.changesIn hopen (fun r hr => hauth.grants_of_sameNames hsame hr) hbody
  refine ⟨⟨hauth, fun r' hr' hkind' => ?_⟩, hchanges.trans (changesIn_of_eq hidles.fs)⟩
  obtain ⟨r, hr, hnames⟩ := hsame.exists_request hr'
  have hkind : r'.kind = r.kind := congrArg Prod.fst hnames
  rw [hkind] at hkind'
  rw [hsame.rule, hsame.target]
  exact (hbody r hr hkind').sameNames hopen hsame hnames

/-- What a new request object knows of its names. -/
theorem bodyNames_created {sys : Sys} {kind : RequestKind} {ctx : RequestContext} {h : Handler}
    (hcreate : createRequest kind ctx = .ok h) (c : Client) :
    (h.processing sys).rule = ctx.rule ∧ (h.processing sys).context.target = ctx.target ∧
      (kind = .put ∨ kind = .post →
        BodyNames (c.withHandler (h.processing sys)) ctx.rule ctx.target (h.processing sys).request ∨
          (h.processing sys).request.tmpFilename = {} ∧ (h.processing sys).context.cgiSocket = ctx.cgiSocket ∧
            (h.processing sys).context.response.statusCode ≠ statusNone) := by
  obtain ⟨⟨h₀, hctx, f, hf⟩, -⟩ := Handler.started_processing sys hcreate
  obtain ⟨chopedTarget, -, hh⟩ := createRequest_ok hcreate
  refine ⟨?_, ?_, fun hkind => ?_⟩
  · rw [hf]
    show h₀.context.rule = ctx.rule
    rw [hctx]
  · rw [hf]
    show h₀.context.target = ctx.target
    rw [hctx]
  · have hstarts := Handler.startsNames_processing sys (h := h) (by rw [hh]; exact hkind)
    have hrule : h.rule = ctx.rule := by rw [hh]; rfl
    have htarget : h.context.target = ctx.target := by rw [hh]; rfl
    have hsocket : h.context.cgiSocket = ctx.cgiSocket := by rw [hh]; rfl
    have htmp : h.request.tmpFilename = {} := by rw [hh]
    rw [hrule, htarget] at hstarts
    cases hstarts with
    | stores hstores => exact Or.inl (.stores hstores)
    | idle hfs htmp' hdone =>
      rcases hdone with ⟨hcgi, hpost⟩ | ⟨hsame, hcode⟩
      · exact Or.inl (.relays hpost hcgi (htmp'.trans htmp))
      · exact Or.inr ⟨htmp'.trans htmp, hsame.trans hsocket, hcode⟩

/-- **One step** of a client changes names that the configuration permits, as its request was granted by one
of its locations. -/
theorem Granted.step (h : Granted server c) (hphase : Phase c) (e : Event) :
    Granted server (c.step e) ∧ ((∀ fs, e ≠ .environment fs) →
      ChangesIn server.permits c.context.world.fs (c.step e).context.world.fs) := by
  cases hclosed : c.closed with
  | true =>
    rw [show c.step e = c from if_pos hclosed]
    exact ⟨h, fun _ => changesIn_refl _ _⟩
  | false =>
    have hauth := h.toAuthorized.step hphase e
    have heffect := effect_step hphase e
    generalize c.step e = c' at hauth heffect ⊢
    cases heffect with
    | @environment fs he =>
      refine ⟨⟨hauth, fun r hr hkind => ?_⟩, fun hne => absurd he (hne fs)⟩
      exact (h.body r hr hkind).sameNames hclosed ⟨rfl, rfl, rfl, rfl, id, rfl⟩ rfl
    | headOnly hhead hcall hrequest hfs =>
      refine ⟨⟨hauth, fun r hr _ => ?_⟩, fun _ => changesIn_of_eq hfs⟩
      rw [hrequest] at hr
      cases hr
    | @request c₁ c₂ _ hcreated hread hidles hstatus hanswered =>
      cases hcreated with
      | same =>
        obtain ⟨hgranted, hchanges⟩ := Granted.of_read hread hidles hauth hclosed h.body
        exact ⟨hgranted, fun _ => hchanges⟩
      | @created sys kind ctx h₁ hhead hworld hserver hlocation hsocket hcreate hpending =>
        obtain ⟨hrule, htarget, hbody⟩ := @bodyNames_created sys kind ctx h₁ hcreate c
        have hkindEq := (Handler.started_processing sys hcreate).kind_eq
        have hprocessing := Handler.changesIn_processing sys hcreate
        generalize h₁.processing sys = h₂ at *
        have hsame : SameNames (c.withHandler h₂) c' := hread.sameNames.trans hidles.sameNames
        -- what `processing` has changed
        have hgrants := hauth.grants_of_sameNames hsame (r := h₂.request) rfl
        have hstarted : ChangesIn server.permits c.context.world.fs h₂.context.world.fs := by
          rw [← hworld]
          refine hprocessing.mono (Set.Subset.trans ?_ hgrants.subset)
          rw [show (c.withHandler h₂).context.rule = ctx.rule from hrule,
            show (c.withHandler h₂).context.target = ctx.target from htarget, hkindEq]
        have hopen : (c.withHandler h₂).closed = false := hclosed
        by_cases hnamed : ∀ r, (c.withHandler h₂).request = some r → r.kind = .put ∨ r.kind = .post →
            BodyNames (c.withHandler h₂) (c.withHandler h₂).context.rule (c.withHandler h₂).context.target r
        · obtain ⟨hgranted, hchanges⟩ := Granted.of_read hread hidles hauth hopen hnamed
          exact ⟨hgranted, fun _ => hstarted.trans hchanges⟩
        · -- the request was answered, so that its body is not read
          have hanswer : h₂.request.tmpFilename = {} ∧ h₂.context.cgiSocket = ctx.cgiSocket ∧
              h₂.context.response.statusCode ≠ statusNone := by
            by_contra hnot
            refine hnamed fun r hr hkind => ?_
            obtain rfl : h₂.request = r := Option.some.inj hr
            rw [show (c.withHandler h₂).context.rule = ctx.rule from hrule,
              show (c.withHandler h₂).context.target = ctx.target from htarget]
            exact (hbody (hkindEq ▸ hkind)).resolve_right hnot
          have hnone : c.readerCall (.clientIn sys) = none := by
            by_contra hcalled
            exact hanswer.2.2 (hpending hcalled)
          have hsocket₂ : h₂.context.cgiSocket = -1 := by rw [hanswer.2.1, hsocket, hhead.cgiSocket]
          cases hread with
          | called c₃ hcall =>
            rw [hcall] at hnone
            cases hnone
          | same hcall =>
            refine ⟨⟨hauth, fun r' hr' hkind' => ?_⟩, fun _ => hstarted.trans (changesIn_of_eq hidles.fs)⟩
            obtain ⟨r, hr, hnames⟩ := hsame.exists_request hr'
            obtain rfl : h₂.request = r := Option.some.inj hr
            have htmp : r'.tmpFilename = {} :=
              (congrArg (fun names => names.2.2.2) hnames).trans hanswer.1
            exact .answered htmp (hsame.cgiSocket.trans hsocket₂)
              (hanswered hhead.request (by rw [hr']; rfl) hnone).symm

/-- A client that was just accepted has no request. -/
theorem granted_init (server : Server) (fs : FileSystem) (connectSocket fd : Fd) (now : Int) :
    Granted server (init server fs connectSocket fd now) where
  server_eq := rfl
  grants r hr := by cases hr
  body r hr _ := by cases hr

theorem granted_run (server : Server) (fs : FileSystem) (connectSocket fd : Fd) (now : Int)
    (es : List Event) :
    Granted server ((init server fs connectSocket fd now).run es) ∧
      Phase ((init server fs connectSocket fd now).run es) :=
  Transition.run_invariant (I := fun c => Granted server c ∧ Phase c) (C := fun _ _ => True)
    (fun _ e h _ => ⟨(h.1.step h.2 e).1, (phase_step h.2 e).1⟩)
    ⟨granted_init server fs connectSocket fd now,
      Or.inr (Or.inl (awaitsHead_init server fs connectSocket fd now))⟩
    (Transition.along_of_forall (fun _ _ => trivial) es _)

/-- The destructors remove the temporary file of a request that was granted.  Where none was opened, its
name is empty. -/
theorem Granted.changesIn_destroy (h : Granted server c) (sys : Sys) :
    ChangesIn (insert [] server.permits) c.context.world.fs (c.destroy sys) := by
  unfold destroy
  cases hr : c.request with
  | none => exact changesIn_refl _ _
  | some r =>
    dsimp only
    by_cases hput : r.kind = .put
    · refine (r.changesIn_destroy sys _).mono ?_
      have hgrants := h.grants_of_sameNames (.refl c) hr
      have hempty : r.tmpFilename = {} → {cstr r.tmpFilename.str} ⊆ insert [] server.permits := by
        rintro htmp p rfl
        rw [htmp]
        exact Set.mem_insert _ _
      have hbody := h.body r hr (Or.inl hput)
      cases hbody with
      | relays _ _ htmp => exact hempty htmp
      | answered htmp => exact hempty htmp
      | stores hstores =>
        rintro p rfl
        exact Set.mem_insert_of_mem _ (hgrants.subset (hstores.writes_tmpFilename (Or.inl hput)))
    · unfold ARequest.destroy
      cases hkind : r.kind with
      | put => exact absurd hkind hput
      | get | post | delete | head => exact changesIn_refl _ _

theorem Reached.granted (h : Reached server c) : Granted server c ∧ Phase c :=
  h.of_run (I := fun c => Granted server c ∧ Phase c) (granted_run server)

end Client

/-! ## The server -/

namespace EventLoop

/-- The server takes a turn, or another process changes the files.  Between two turns the disk may become
anything. -/
inductive Act
  | turn (t : Turn)
  | others (fs : FileSystem)

def act (s : EventLoop) : Act → EventLoop
  | .turn t => s.turn t
  | .others fs => { s with fs := fs }

/-- The turns are those that calls of `routine` take; the other processes do as they like. -/
def Occurs (its : List Iteration) (s : EventLoop) : Act → Prop
  | .turn t => Offered its s t
  | .others _ => True

section Turn

variable {s : EventLoop} {id : Nat} {c : Client}

/-- The files after a call are those that the client leaves. -/
theorem fs_call (hclient : s.client? id = some c) (sys : Sys) (f : Sys → Client → Ret × Client) :
    (s.call id sys f).2.fs =
      (f (s.answers sys c) { c with context := c.context.setFs s.fs }).2.context.world.fs := by
  unfold EventLoop.call
  rw [hclient]
  dsimp only
  generalize f (s.answers sys c) { c with context := c.context.setFs s.fs } = r
  obtain ⟨opened, interest, orphans, map, hattach⟩ := attachCGI_eq
    ({ s.setClient id r.2 with fs := r.2.context.world.fs } : EventLoop) (s.answers sys c) c r.2
  rw [hattach]
  obtain ⟨ret, c'⟩ := r
  cases ret <;> rfl

/-- The file system after a call through the map of the server is that after an event of the client on its
own, other than a change that another client makes. -/
theorem exists_step_of_handles {server : Server} {fd : Fd} {f : Sys → Client → Ret × Client}
    (h : c.Reached server) (hf : Handles fd f) (hcgi : fd ≠ c.fd → c.context.cgiSocket ≠ -1) (sys : Sys) :
    ∃ e, (∀ fs, e ≠ Event.environment fs) ∧
      (c.step e).context.world.fs = (f sys c).2.context.world.fs := by
  obtain ⟨e, hown, -, hstep⟩ := exists_event_of_handles h hf sys hcgi
  refine ⟨e, hown, ?_⟩
  rw [hstep]
  split_ifs <;> rfl

theorem Lives.changesIn_serveFd (h : Lives s) {fd : Fd} {f : Sys → Client → Ret × Client}
    (hf : Handles fd f) (epollDel : Fd → Bool) (sys : Sys) :
    ChangesIn s.server.permits s.fs (s.serveFd epollDel fd sys f).fs := by
  cases hfind : s.fdClientMap.find? fd with
  | none =>
    unfold EventLoop.serveFd
    rw [hfind]
    exact changesIn_refl _ _
  | some id =>
    obtain ⟨c, hclient, howns⟩ := h.client? hfind
    have hreached := (h.reached _ (client?_eq_some hclient)).setFs s.fs
    have hcgi : fd ≠ c.fd → c.context.cgiSocket ≠ -1 := fun hne heq =>
      (h.mapped fd id hfind).2.1 ((howns.resolve_left hne).trans heq)
    obtain ⟨e, hown, hfs⟩ := exists_step_of_handles hreached hf hcgi (s.answers sys c)
    obtain ⟨hgranted, hphase⟩ := hreached.granted
    have hchanges := (hgranted.step hphase e).2 hown
    rw [hfs, ← fs_call hclient] at hchanges
    rcases serveFd_cases epollDel sys f hfind with ⟨-, heq⟩ | ⟨-, heq⟩
    · rw [heq]
      exact hchanges
    · rw [heq, (kept_removeConnection epollDel fd).2]
      exact hchanges

theorem fs_checkClient (s : EventLoop) (sys : Sys) (epollDel : Fd → Bool) (id : Nat) :
    (s.checkClient sys epollDel id).fs = s.fs := by
  have hcall : (s.call id sys fun sys c => c.timeoutCheck sys).2.fs = s.fs := by
    cases hclient : s.client? id with
    | none =>
      unfold EventLoop.call
      rw [hclient]
    | some c =>
      rw [fs_call hclient]
      exact (Client.idles_timeoutCheck _ _).fs
  unfold EventLoop.checkClient
  generalize (s.call id sys fun sys c => c.timeoutCheck sys) = r at hcall ⊢
  split_ifs
  · rfl
  · obtain ⟨ret, s'⟩ := r
    cases ret with
    | reqContinue | throws => exact hcall
    | reqDone | reqError =>
      dsimp only
      cases s'.client? id with
      | none => exact hcall
      | some c => exact (kept_removeConnection epollDel c.fd).2.trans hcall

theorem fs_checkClientsTimeout (s : EventLoop) (timeouts : Nat → Sys) (epollDel : Fd → Bool) :
    (s.checkClientsTimeout timeouts epollDel).fs = s.fs := by
  unfold EventLoop.checkClientsTimeout
  generalize s.clients.map ClientNode.id = ids
  induction ids generalizing s with
  | nil => rfl
  | cons id ids ih =>
    rw [List.foldl_cons, ih]
    exact fs_checkClient s (timeouts id) epollDel id

theorem fs_addConnection (s : EventLoop) (sys : AcceptSys) (socket : Fd) :
    (s.addConnection sys socket).fs = s.fs := by
  unfold EventLoop.addConnection
  cases s.fresh sys.accept with
  | none => rfl
  | some fd =>
    dsimp only
    split_ifs <;> rfl

/-- **One turn** changes names that the configuration permits, whichever clients it calls and however many. -/
theorem Lives.changesIn_turn (h : Lives s) (t : Turn) : ChangesIn s.server.permits s.fs (s.turn t).fs := by
  unfold EventLoop.turn
  split_ifs
  · exact changesIn_refl _ _
  · cases t with
    | accept sys socket => exact changesIn_of_eq (fs_addConnection s sys socket)
    | input sys epollDel fd => exact h.changesIn_serveFd .handleIn epollDel sys
    | output sys epollDel fd => exact h.changesIn_serveFd .handleOut epollDel sys
    | remove epollDel fd => exact changesIn_of_eq (kept_removeConnection epollDel fd).2
    | sweep timeouts epollDel => exact changesIn_of_eq (fs_checkClientsTimeout s timeouts epollDel)

end Turn

theorem Lives.acts {s : EventLoop} (h : Lives s) {its : List Iteration} (hadmits : ∀ it ∈ its, it.Admits)
    {acts : List Act} (hall : Transition.Along act (Occurs its) s acts) :
    (Transition.run act s acts).server = s.server ∧
      ((Transition.run act s acts).down = none → Lives (Transition.run act s acts)) := by
  refine Transition.run_invariant (I := fun s' => s'.server = s.server ∧ (s'.down = none → Lives s')) ?_
    ⟨rfl, fun _ => h⟩ hall
  rintro s' a ⟨hserver, hlives⟩ hoccurs
  cases a with
  | others fs => exact ⟨hserver, fun hup => (hlives hup).congr rfl rfl rfl rfl rfl rfl⟩
  | turn t =>
    obtain ⟨it, hit, hoffers⟩ := hoccurs
    refine ⟨(server_turns [t]).trans hserver, fun hup => ?_⟩
    exact (hlives (down_of_turn hup)).turn (hadmits it hit) hoffers hup

/-- **What the server may write.**  Whatever clients connect and send, in whatever order they are served,
and whatever other processes make of the files between the turns: a turn of the server changes only entries
that some name is resolved to which the configuration permits, that is, a name that a location lets some
request write which it allows and does not redirect.  The destructors of a client, as it is in the list or
after a call that ends it, change no other entry either, unless it is that of the empty name. -/
theorem permits_acts (server : Server) (fs : FileSystem) (its : List Iteration)
    (hadmits : ∀ it ∈ its, it.Admits) (acts : List Act)
    (hall : Transition.Along act (Occurs its) (start server fs) acts) :
    let s := Transition.run act (start server fs) acts
    (∀ t, ChangesIn server.permits s.fs (s.turn t).fs) ∧
      (s.down = none → ∀ n ∈ s.clients, ∀ c : Client,
        (c = n.current s.fs ∨ ∃ t e, s.Calls t n e ∧ c = (n.current s.fs).step e) →
          ∀ sys, ChangesIn (insert [] server.permits) c.context.world.fs (c.destroy sys)) := by
  obtain ⟨hserver, hlives⟩ := (lives_start server fs).acts hadmits hall
  have hserver' : (Transition.run act (start server fs) acts).server = server := hserver
  generalize Transition.run act (start server fs) acts = s at hserver' hlives ⊢
  subst hserver'
  refine ⟨fun t => ?_, fun hup n hn c hc sys => ?_⟩
  · cases hdown : s.down with
    | none => exact (hlives hdown).changesIn_turn t
    | some fault =>
      unfold EventLoop.turn
      rw [hdown]
      exact changesIn_refl _ _
  · obtain ⟨hgranted, hphase⟩ := (((hlives hup).reached n hn).setFs s.fs).granted
    rcases hc with rfl | ⟨t, e, -, rfl⟩
    · exact hgranted.changesIn_destroy sys
    · exact ((hgranted.step hphase e).1).changesIn_destroy sys

/-- A location whose files may be deleted. -/
def deletingServer : Server :=
  .single 3 { locations := [{ Client.fileLocation with allowed := 4 }] } fun _ => 0

/-- A client comes. -/
def comes : Iteration := .quiet [⟨3, false, true, false⟩] (some 4) (.quiet 0) false

/-- A file beside the root `/r/`, and the two names that lead to it. -/
def besideRoot : FileSystem where
  table e := if e = bytes "/x" then some { kind := .regular (bytes "abc") } else none
  entry p := if p = bytes "/r/../x" then bytes "/x" else p

def deleteRequest : Bytes := bytes "DELETE /../x HTTP/1.1\r\nHost: h\r\n\r\n"

theorem deleteRequest_ne_nil : deleteRequest ≠ [] := by decide

theorem length_deleteRequest : deleteRequest.length ≤ reqBufferSize := by decide

/-- The turn in which it asks to delete a file. -/
def deletes : Turn :=
  .input (.receiving deleteRequest deleteRequest_ne_nil length_deleteRequest) (fun _ => true) 4

set_option maxRecDepth 10000 in
/-- The file is gone, so that some name that the configuration permits is resolved to it: the name that the
client made with `..`. -/
theorem permits_acts_deletes :
    let s := Transition.run act (start deletingServer besideRoot)
      [.turn (.accept ⟨some 4, true, true, 0⟩ 3)]
    (s.fs.node (bytes "/x")).isSome = true ∧ (s.turn deletes).fs.node (bytes "/x") = none ∧
      ∃ p ∈ deletingServer.permits, besideRoot.entry p = bytes "/x" := by
  have hadmits : ∀ it ∈ [comes], it.Admits := by
    intro it hit sys hsys
    rw [List.mem_singleton.mp hit] at hsys
    obtain ⟨ev, -, rfl⟩ := List.mem_map.mp hsys
    rfl
  have hoccurs : Transition.Along act (Occurs [comes]) (start deletingServer besideRoot)
      [.turn (.accept ⟨some 4, true, true, 0⟩ 3)] :=
    ⟨⟨comes, List.mem_singleton.mpr rfl, @Iteration.Offers.accept comes _
      ⟨⟨some 4, true, true, 0⟩, .quiet 0, .quiet 0, fun _ => true⟩ 3 (List.mem_singleton.mpr rfl) rfl⟩,
      trivial⟩
  have hpermits := permits_acts deletingServer besideRoot [comes] hadmits _ hoccurs
  refine ⟨by decide, by decide, ?_⟩
  by_contra hnot
  have hsame := (hpermits.1 deletes).node (p := bytes "/x") fun hentry => hnot hentry
  exact absurd hsame (by decide)

end EventLoop
end Webserv
