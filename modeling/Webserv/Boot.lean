import Webserv.Configuration.Cursor
import Webserv.Configuration.Texts
import Webserv.RoutePaths
import Webserv.VirtualHosts

/-!
# From the command line to the server

`main` reads its arguments and the configuration file that they name, and configures a server, until it has
one or an error to report.  With the option `t` it only reports whether the file is accepted.

* `Arguments`, `readArguments`: the command line.
* `readConfiguration`: `Configuration::Configuration`.
* `boot`: what `main` does from `server_restart` to the loop.
* `boot_check`: what the option `t` says is what happens without it.
* `configure_of_boot`, `parsed_of_parse`, `givenDirs_of_parse`: what a server that is started comes from.

## Why the option is a function on arguments

`-t` can stand anywhere, also behind the name of the file, and may be given twice.  What it does is set one
flag; everything read before or after it is the same.  So `check` is the function that sets the flag, each
step of the reading commutes with it (`parseOption_check`, `take_check`, `foldlM_check`), and the position
drops out of the statement.  Then the two ways of running `main` have the same configuration or the same
error, and the flag is looked at once.

## Why the errors are apart

`main` has handlers for two exceptions and a third that restarts the server.  Which one is reached is the
whole difference between an exit code and a loop without an end, so `BootError` keeps them apart.  The third
is not reached from the configuration file, which is the content of `readConfiguration_ne_fatal` and rests
on the parser never leaving its list of tokens.

## What the parser promises

Other modules assume something of their locations: that the path begins and ends as the parser leaves it, or
that a root is a directory as its directive writes it.  These assumptions are discharged here, where the
parser and the configuration are together.  A location of an accepted file is `Parsed`, its directories are
`GivenDirs`, and a server that is started serves from such locations only (`configure_of_boot`).
-/

namespace Webserv

/-! ## The arguments -/

/-- The exceptions that the handlers of `main` tell apart: the first two end the program with an exit code,
and the third starts the server again. -/
inductive BootError where
  | invalidArgument (what : Bytes)
  /-- `Configuration::ConfigurationException` -/
  | configuration (what : Bytes)
  | fatal (fault : Fault)
  deriving DecidableEq

/-- What the constructor takes from the arguments: the path, empty until one is given, and `NORUN_OPTION`. -/
structure Arguments where
  path : Bytes := []
  noRun : Bool := false
  deriving DecidableEq

/-- `DEFAULT_CONF_FILEPATH` -/
def defaultConfFilepath : Bytes := bytes "./conf/default.conf"

namespace Arguments

abbrev dash : Byte := 45

/-- `Configuration::_isOption`. -/
def isOption (arg : Bytes) : Bool := arg.head? = some dash

/-- The loop of `Configuration::_parseOption`; the only identifier is `t`. -/
def parseOption (a : Arguments) : Bytes → Except BootError Arguments
  | [] => .ok a
  | c :: rest =>
    if c = 116 then parseOption { a with noRun := true } rest
    else .error (.invalidArgument (bytes "invalid option -- '" ++ [c] ++ bytes "'"))

/-- The body of the loop over the arguments.  An empty argument does not set the path. -/
def take (a : Arguments) (arg : Bytes) : Except BootError Arguments :=
  if isOption arg then a.parseOption arg.tail
  else if a.path = [] then .ok { a with path := arg }
  else .error (.invalidArgument (bytes "too many arguments"))

/-- The path of the file that is read. -/
def file (a : Arguments) : Bytes := if a.path = [] then defaultConfFilepath else a.path

end Arguments

/-- The loop over the arguments. -/
def readArguments (args : List Bytes) : Except BootError Arguments := args.foldlM Arguments.take {}

/-! ## The configuration -/

/-- What the getters of `Configuration` return. -/
def ConfFile.configuration (conf : ConfFile) : Configuration where
  blocks := conf.blocks
  timeouts := conf.timeouts
  mimetypes := conf.mimetypes

/-- The rest of the constructor, once the arguments are read. -/
def readFile (files : Bytes → Except Bytes Bytes) (a : Arguments) : Except BootError Configuration :=
  match ConfFile.parse ConfFile.init (files a.file) with
  | .error (.exception e) => .error (.configuration (e.what a.file))
  -- No file leads here: the parser ends, or throws one of its own exceptions (`parse_cases`).
  | .error _ => .error (.fatal .outOfRange)
  | .ok (_, conf) =>
    if conf.blocks = [] then
      .error (.configuration (bytes "no \"server\" section in configuration"))
    else .ok conf.configuration

/-- `Configuration::Configuration`, and `noRun`: the arguments are read before the file, so that their
errors come first. -/
def readConfiguration (files : Bytes → Except Bytes Bytes) (args : List Bytes) :
    Except BootError (Bool × Configuration) := do
  let a ← readArguments args
  let config ← readFile files a
  return (a.noRun, config)

/-! ## The start -/

/-- How `main` leaves the part before the loop: with an exit code, with an exception, or with a server that
is configured. -/
inductive Boot where
  | returns (code : Nat)
  /-- `// sleep(5); goto server_restart` -/
  | restarts (fault : Fault)
  | serves (server : Server)

/-- `main` from `server_restart` on.  A signal that has come before is looked at first. -/
def boot (signal : Bool) (files : Bytes → Except Bytes Bytes) (sys : ListenSys) (args : List Bytes) :
    Boot :=
  if signal then .returns 0
  else
    match readConfiguration files args with
    | .error (.invalidArgument _) | .error (.configuration _) => .returns 1
    | .error (.fatal fault) => .restarts fault
    | .ok (noRun, config) =>
      if noRun then .returns 0
      else
        match configure sys config with
        | .error fault => .restarts fault
        | .ok (server, _) => .serves server

/-! ## The option -/

section Check

open Arguments

/-- What the option does to what is read before and after it. -/
def Arguments.check (a : Arguments) : Arguments := { a with noRun := true }

theorem parseOption_check (a : Arguments) (identifiers : Bytes) :
    a.check.parseOption identifiers = (a.parseOption identifiers).map check := by
  induction identifiers generalizing a with
  | nil => rfl
  | cons c rest ih =>
    rw [parseOption, parseOption]
    split_ifs
    · exact ih { a with noRun := true }
    · rfl

theorem take_check (a : Arguments) (arg : Bytes) : a.check.take arg = (a.take arg).map check := by
  show (if isOption arg then a.check.parseOption arg.tail
    else if a.path = [] then _ else _) = (if isOption arg then _ else _ : Except BootError _).map check
  split_ifs
  · exact parseOption_check a arg.tail
  · rfl
  · rfl

theorem foldlM_check (args : List Bytes) (a : Arguments) :
    args.foldlM take a.check = (args.foldlM take a).map check := by
  induction args generalizing a with
  | nil => rfl
  | cons arg args ih =>
    rw [List.foldlM_cons, List.foldlM_cons, take_check]
    cases a.take arg with
    | error e => rfl
    | ok a' => exact ih a'

/-- Wherever the option stands, it is the only thing that it changes. -/
theorem readArguments_check (args₁ args₂ : List Bytes) :
    readArguments (args₁ ++ bytes "-t" :: args₂) = (readArguments (args₁ ++ args₂)).map check := by
  unfold readArguments
  rw [List.foldlM_append, List.foldlM_append]
  cases args₁.foldlM take {} with
  | error e => rfl
  | ok a => exact foldlM_check args₂ a

theorem readConfiguration_check (files : Bytes → Except Bytes Bytes) (args₁ args₂ : List Bytes) :
    readConfiguration files (args₁ ++ bytes "-t" :: args₂) =
      (readConfiguration files (args₁ ++ args₂)).map fun r => (true, r.2) := by
  unfold readConfiguration
  rw [readArguments_check]
  cases readArguments (args₁ ++ args₂) with
  | error e => rfl
  | ok a =>
    show (readFile files a.check >>= fun config => pure (true, config)) = _
    have hfile : readFile files a.check = readFile files a := rfl
    rw [hfile]
    show _ = (readFile files a >>= fun config => pure (a.noRun, config)).map _
    cases readFile files a <;> rfl

/-- The parser ends, one way or the other: it never reads a token behind the last one, and it never runs out
of rounds. -/
theorem parse_cases (file : Except Bytes Bytes) :
    (∃ r, ConfFile.parse ConfFile.init file = .ok r) ∨
      ∃ e, ConfFile.parse ConfFile.init file = .error (.exception e) := by
  cases file with
  | error strerror => exact Or.inr ⟨_, rfl⟩
  | ok content =>
    rcases ConfFile.parseTokens_cases (ConfFile.tokenizeFile content) ConfFile.init with
      ⟨items, conf, -, -, heq⟩ | ⟨e, heq⟩
    · exact Or.inl ⟨_, heq⟩
    · exact Or.inr ⟨e, heq⟩

/-- The constructor throws nothing but what `main` reports: the parser does not read behind its tokens. -/
theorem readConfiguration_ne_fatal (files : Bytes → Except Bytes Bytes) (args : List Bytes)
    (fault : Fault) : readConfiguration files args ≠ .error (.fatal fault) := by
  have hoption : ∀ (identifiers : Bytes) (a : Arguments),
      a.parseOption identifiers ≠ .error (.fatal fault) := by
    intro identifiers
    induction identifiers with
    | nil => exact fun a heq => by cases heq
    | cons c rest ih =>
      intro a
      rw [parseOption]
      split_ifs
      · exact ih _
      · exact fun heq => by cases heq
  have htake : ∀ (a : Arguments) (arg : Bytes), a.take arg ≠ .error (.fatal fault) := by
    intro a arg
    unfold take
    split_ifs
    · exact hoption _ _
    · exact fun heq => by cases heq
    · exact fun heq => by cases heq
  have hargs : ∀ (args : List Bytes) (a : Arguments), args.foldlM take a ≠ .error (.fatal fault) := by
    intro args
    induction args with
    | nil => exact fun a heq => by cases heq
    | cons arg args ih =>
      intro a heq
      rw [List.foldlM_cons] at heq
      cases harg : a.take arg with
      | error e =>
        rw [harg] at heq
        exact htake a arg (harg.trans (by cases heq; rfl))
      | ok a' =>
        rw [harg] at heq
        exact ih a' heq
  have hfile : ∀ a : Arguments, readFile files a ≠ .error (.fatal fault) := by
    intro a
    unfold readFile
    rcases parse_cases (files a.file) with ⟨⟨token, conf⟩, heq⟩ | ⟨e, heq⟩
    · rw [heq]
      dsimp only
      split_ifs <;> exact fun heq => by cases heq
    · rw [heq]
      exact fun heq => by cases heq
  unfold readConfiguration readArguments
  cases hread : args.foldlM take {} with
  | error e =>
    intro heq
    exact hargs args {} (hread.trans (by cases heq; rfl))
  | ok a =>
    intro heq
    change (readFile files a >>= fun config => pure (a.noRun, config)) = _ at heq
    cases hconf : readFile files a with
    | error e =>
      rw [hconf] at heq
      exact hfile a (hconf.trans (by cases heq; rfl))
    | ok config =>
      rw [hconf] at heq
      cases heq

end Check

/-- **The option `t`.**  Wherever it stands, no server is started and no socket opened; the same file is
read and the same error, if any, reported as without it, and the exit code is 1 exactly if it is so
without it. -/
theorem boot_check (files : Bytes → Except Bytes Bytes) (sys : ListenSys) (args₁ args₂ : List Bytes) :
    readConfiguration files (args₁ ++ bytes "-t" :: args₂) =
        (readConfiguration files (args₁ ++ args₂)).map (fun r => (true, r.2)) ∧
      (boot false files sys (args₁ ++ bytes "-t" :: args₂) = .returns 0 ∨
        boot false files sys (args₁ ++ bytes "-t" :: args₂) = .returns 1) ∧
      (boot false files sys (args₁ ++ bytes "-t" :: args₂) = .returns 1 ↔
        boot false files sys (args₁ ++ args₂) = .returns 1) := by
  have hcheck := readConfiguration_check files args₁ args₂
  have hfatal := readConfiguration_ne_fatal files (args₁ ++ args₂)
  refine ⟨hcheck, ?_⟩
  unfold boot
  rw [hcheck]
  generalize readConfiguration files (args₁ ++ args₂) = r at hfatal
  cases r with
  | error e =>
    cases e with
    | invalidArgument | configuration => exact ⟨Or.inr rfl, Iff.rfl⟩
    | fatal fault => exact absurd rfl (hfatal fault)
  | ok r =>
    obtain ⟨noRun, config⟩ := r
    refine ⟨Or.inl rfl, iff_of_false (fun heq => by cases heq) ?_⟩
    cases noRun with
    | true => exact fun heq => by cases heq
    | false =>
      dsimp only [Bool.false_eq_true, if_false]
      cases configure sys config <;> exact fun heq => by cases heq

/-! ## The server that is started -/

/-- The locations of an accepted file are as the parser leaves them. -/
theorem parsed_of_parse {file : Except Bytes Bytes} {token : Nat} {conf : ConfFile}
    (h : ConfFile.parse ConfFile.init file = .ok (token, conf)) :
    ∀ block ∈ conf.blocks, ∀ loc ∈ block.locations, loc.Parsed := by
  refine blocks_of_parse (P := fun block => ∀ loc ∈ block.locations, loc.Parsed) ?_ h
  intro entries server hserver
  obtain ⟨core, -, hall, rfl⟩ := serverBlock_eq_some_iff.mp hserver
  intro loc hloc
  obtain ⟨l, hl, rfl⟩ := List.mem_map.mp hloc
  obtain ⟨location, hlocation⟩ := Option.isSome_iff_exists.mp (hall l hl)
  have hfinal : (finalLocation core.globalLocation l).path = location.path := by
    rw [finalLocation, hlocation]
    rfl
  unfold locationBlock at hlocation
  split_ifs at hlocation with horigin
  have hkept : location.path = Path.ofString (l.1 ++ [slash]) :=
    foldlM_keeps LocationBlock.path (fun _ _ _ h => (LocationDirective.sets_of_apply h).path) hlocation
  rw [← hkept] at horigin
  exact ⟨⟨l.1, hfinal.trans hkept⟩, by rw [hfinal]; exact horigin⟩

/-- What a directive that names a directory leaves: nothing, or the word of its line with a slash appended. -/
def Path.GivenDir (p : Path) : Prop := p.isEmpty = true ∨ ∃ word, p = Path.ofString (word ++ [slash])

/-- The directories of a location are as their directives leave them, which is what the parser makes sure of
for every location of a file. -/
structure LocationBlock.GivenDirs (loc : LocationBlock) : Prop where
  root : loc.root.GivenDir
  upload : loc.clientBodyUploadPath.GivenDir

theorem LocationBlock.givenDirs_of_isEmpty {loc : LocationBlock} (hroot : loc.root.isEmpty = true)
    (hupload : loc.clientBodyUploadPath.isEmpty = true) : loc.GivenDirs :=
  ⟨Or.inl hroot, Or.inl hupload⟩

theorem LocationDirective.givenDirs_of_apply {dir : LocationDirective} {args : List Bytes}
    {location location' : LocationBlock} (h : dir.apply args location = some location')
    (hdirs : location.GivenDirs) : location'.GivenDirs := by
  have hsets := sets_of_apply h
  constructor
  · by_cases hdir : dir = root
    · subst hdir
      exact Or.inr ⟨args.headD [], hsets.value fun heq => by cases heq⟩
    · rw [show location'.root = location.root from hsets.others root (Ne.symm hdir)]
      exact hdirs.root
  · by_cases hdir : dir = clientBodyUploadPath
    · subst hdir
      exact Or.inr ⟨args.headD [], hsets.value fun heq => by cases heq⟩
    · rw [show location'.clientBodyUploadPath = location.clientBodyUploadPath from
        hsets.others clientBodyUploadPath (Ne.symm hdir)]
      exact hdirs.upload

/-- A location takes the directories that it does not name itself from the server. -/
theorem LocationBlock.GivenDirs.fill {loc other : LocationBlock} (hloc : loc.GivenDirs)
    (hother : other.GivenDirs) : (loc.fill other).GivenDirs := by
  constructor
  · show Path.GivenDir (if loc.root.isEmpty then other.root else loc.root)
    split_ifs
    · exact hother.root
    · exact hloc.root
  · show Path.GivenDir (if loc.clientBodyUploadPath.isEmpty then other.clientBodyUploadPath
      else loc.clientBodyUploadPath)
    split_ifs
    · exact hother.upload
    · exact hloc.upload

/-- The directories of every location of an accepted file: nothing, or a word of the file with a slash
appended. -/
theorem givenDirs_of_parse {file : Except Bytes Bytes} {token : Nat} {conf : ConfFile}
    (h : ConfFile.parse ConfFile.init file = .ok (token, conf)) :
    ∀ block ∈ conf.blocks, ∀ loc ∈ block.locations, loc.GivenDirs := by
  refine blocks_of_parse (P := fun block => ∀ loc ∈ block.locations, loc.GivenDirs) ?_ h
  intro entries server hserver
  obtain ⟨core, hcore, hall, rfl⟩ := serverBlock_eq_some_iff.mp hserver
  have hglobal : core.globalLocation.GivenDirs :=
    foldlM_invariant (globalLocation_of_others hcore)
      (fun _ _ _ _ happly => LocationDirective.givenDirs_of_apply happly)
      (LocationBlock.givenDirs_of_isEmpty rfl rfl)
  intro loc hloc
  obtain ⟨l, hl, rfl⟩ := List.mem_map.mp hloc
  obtain ⟨location, hlocation⟩ := Option.isSome_iff_exists.mp (hall l hl)
  rw [finalLocation, hlocation]
  unfold locationBlock at hlocation
  split_ifs at hlocation
  have hown : location.GivenDirs :=
    foldlM_invariant hlocation (fun _ _ _ _ happly => LocationDirective.givenDirs_of_apply happly)
      (LocationBlock.givenDirs_of_isEmpty rfl rfl)
  exact hown.fill hglobal

/-- A location with a root that the constructor does not decode serves from a directory of the file. -/
theorem LocationBlock.GivenDirs.parsedRoot {loc : LocationBlock} (h : loc.GivenDirs)
    (hroot : loc.root.isEmpty = false) (hpercent : percent ∉ loc.root.str) : loc.ParsedRoot := by
  refine ⟨h.root.resolve_left fun hempty => ?_, hpercent⟩
  rw [hroot] at hempty
  cases hempty

/-- So the names of its requests are those of `processing_confined`. -/
theorem LocationBlock.GivenDirs.configuredDirs {loc : LocationBlock} (h : loc.GivenDirs)
    (hroot : loc.root.isEmpty = false) (hpercent : percent ∉ loc.root.str) : loc.ConfiguredDirs where
  root := (h.parsedRoot hroot hpercent).dirPath
  noPercent := hpercent
  upload := by
    intro hupload
    rcases h.upload with hempty | ⟨word, hword⟩
    · rw [LocationBlock.canUpload, hempty] at hupload
      cases hupload
    · rw [hword]
      exact Path.dirPath_ofString word

/-- The sockets of a server that is configured have blocks of the configuration, and each has some. -/
theorem blocks_of_configure {sys : ListenSys} {config : Configuration} {server : Server}
    {binds : List (Fd × SockAddr)} (h : configure sys config = .ok (server, binds)) :
    server.mimetypes = config.mimetypes ∧ ∀ fd blocks, server.serverBlocks.find? fd = some blocks →
      blocks ≠ [] ∧ ∀ block ∈ blocks, block ∈ config.blocks := by
  unfold configure at h
  split_ifs at h
  cases hadd : Listening.addBlocks sys config.blocks with
  | error fault =>
    rw [hadd] at h
    cases h
  | ok l =>
    rw [hadd] at h
    cases h
    have hbound : Listening.Bound sys (Listening.pairs config.blocks) l :=
      (Listening.bound_nil sys).addBlocks hadd
    refine ⟨rfl, fun fd blocks hfind => ?_⟩
    have hsome : (l.serverBlocks.find? fd).isSome = true := by rw [hfind, Option.isSome_some]
    obtain ⟨⟨fd, host⟩, hbind, rfl⟩ := List.mem_map.mp (hbound.keys fd hsome)
    obtain ⟨first, hfirst, hhost⟩ :=
      Listening.mem_pairs.mp ((hbound.mem_iff host).mp (List.mem_map_of_mem hbind))
    have hmem : ∀ block, block ∈ Listening.blocksOn host (Listening.pairs config.blocks) ↔
        block ∈ config.blocks ∧ host ∈ block.hosts := by
      intro block
      simp [Listening.blocksOn, Listening.pairs]
    rw [hbound.blocks _ _ hbind] at hfind
    obtain rfl := Option.some.inj hfind
    exact ⟨List.ne_nil_of_mem ((hmem first).mpr ⟨hfirst, hhost⟩), fun block hb => ((hmem block).mp hb).1⟩

/-- A server that is started was configured from an accepted file with a block. -/
theorem configure_of_boot {signal : Bool} {files : Bytes → Except Bytes Bytes} {sys : ListenSys}
    {args : List Bytes} {server : Server} (h : boot signal files sys args = .serves server) :
    ∃ (file : Except Bytes Bytes) (token : Nat) (conf : ConfFile) (binds : List (Fd × SockAddr)),
      ConfFile.parse ConfFile.init file = .ok (token, conf) ∧ conf.blocks ≠ [] ∧
        configure sys conf.configuration = .ok (server, binds) := by
  have hread : ∃ noRun config binds, readConfiguration files args = .ok (noRun, config) ∧
      configure sys config = .ok (server, binds) := by
    unfold boot at h
    split_ifs at h
    cases hread : readConfiguration files args with
    | error e =>
      rw [hread] at h
      cases e <;> cases h
    | ok r =>
      obtain ⟨noRun, config⟩ := r
      rw [hread] at h
      dsimp only at h
      split_ifs at h
      cases hconfigure : configure sys config with
      | error fault =>
        rw [hconfigure] at h
        cases h
      | ok r =>
        rw [hconfigure] at h
        cases h
        exact ⟨_, _, r.2, rfl, hconfigure⟩
  obtain ⟨noRun, config, binds, hread, hconfigure⟩ := hread
  unfold readConfiguration at hread
  cases hargs : readArguments args with
  | error e =>
    rw [hargs] at hread
    cases hread
  | ok a =>
    rw [hargs] at hread
    change (readFile files a >>= fun config => pure (a.noRun, config)) = _ at hread
    unfold readFile at hread
    cases hparse : ConfFile.parse ConfFile.init (files a.file) with
    | error e =>
      rw [hparse] at hread
      cases e <;> cases hread
    | ok r =>
      rw [hparse] at hread
      dsimp only at hread
      split_ifs at hread with hblocks
      · cases hread
      · cases hread
        exact ⟨_, _, r.2, binds, hparse, hblocks, hconfigure⟩

end Webserv
