import Webserv.Configuration.Items

/-!
# Server blocks as settings

A server block as a list of entries with their words as strings, without the lines of the file, and what the
entries do to the settings of the block.  The parser computes this: a block of tokens has the value of its
entries (`scope_toOption`), whatever lines they stand on.

* `LocationDirective.apply`, `ServerLine.apply`, `Entry.apply`: what an entry does.
* `serverBlock`: the block that a list of entries describes.
* `serverDirective_iff`: `_serverDirective` accepts the blocks that `serverBlock` gives a value.

## Why tokens are given up

A token carries the number of its line for the error messages, and nothing else looks at it.  Questions
about configurations, which setting a location ends with, whether the order of two directives matters,
compare blocks that may stand anywhere in a file.  So the tokens are replaced by their strings and the
errors by `none`: two blocks with the same texts have the same value.  The equations are those of
`Configuration.Lines`, with `toOption` in front of both sides, and it commutes with each way to put handlers
together.

## What is lost

Which error is thrown, and with which texts.  This is settled in the modules before, which keep the tokens.
-/

namespace Webserv

open ConfFile TokenCursor

/-! ## What a directive does -/

/-- The words of a directive, without the lines they were found on. -/
def texts (ws : List ConfToken) : List Bytes := ws.map ConfToken.str

/-- What a directive of a location does to it. -/
def LocationDirective.apply (dir : LocationDirective) (args : List Bytes) (location : LocationBlock) :
    Option LocationBlock :=
  match dir, args with
  | root, [value] => some (location.setRoot (value ++ [slash]))
  | allow, method :: methods => (method :: methods).foldlM LocationBlock.allowMethod location
  | clientMaxBodySize, [value] => (stoi 0 uint32Max value).map location.setMaxBodySize
  | autoindex, [value] => location.setDirListing value
  | redirect, [code, body] =>
    (stoi 0 uint16Max code).bind fun status => location.setRedirect status.toNat body
  | index, name :: names => some ((name :: names).foldl LocationBlock.addIndex location)
  | cgi, ext :: binary :: args =>
    let words := ext :: binary :: args
    some (words.dropLast.foldl
      (fun location ext => location.addCGI ext (words.getLast (List.cons_ne_nil _ _))) location)
  | clientBodyUploadPath, [value] => some (location.setClientBodyUploadPath (value ++ [slash]))
  | clientBodyTempPath, [value] => some (location.setClientBodyTempPath (value ++ [slash]))
  | _, _ => none

/-- What a line of a server does to it, with the root that is known before. -/
def ServerLine.apply (root : Path) (dir : ServerLine) (args : List Bytes) (server : ServerBlock) :
    Option ServerBlock :=
  match dir, args with
  | listen, [value] => (listenHost value).map server.addHost
  | serverName, name :: names => some ((name :: names).foldl ServerBlock.addName server)
  | errorPage, code :: file :: args =>
    let words := code :: file :: args
    if root.isEmpty then some server
    else
      words.dropLast.foldlM (fun server code => (errorStatus code).map fun status =>
        server.addErrorPage status
          (Path.ofString (root.str ++ words.getLast (List.cons_ne_nil _ _)))) server
  | _, _ => none

/-! ## The directives of the parser -/

namespace ConfFile

variable {α β : Type}

theorem toOption_bind (x : Except ConfError α) (f : α → Except ConfError β) :
    (x >>= f).toOption = x.toOption >>= fun a => (f a).toOption := by
  cases x <;> rfl

theorem toOption_map (x : Except ConfError α) (f : α → β) : (x.map f).toOption = x.toOption.map f := by
  cases x <;> rfl

theorem toOption_foldlM (f : α → β → Except ConfError α) :
    ∀ (l : List β) (s : α), (l.foldlM f s).toOption = l.foldlM (fun s t => (f s t).toOption) s
  | [], _ => rfl
  | t :: l, s => by
    rw [List.foldlM_cons, List.foldlM_cons, toOption_bind]
    exact congrArg _ (funext fun s => toOption_foldlM f l s)

/-- A loop over words is a loop over their texts. -/
theorem toOption_foldlM_texts {f : α → ConfToken → Except ConfError α} {g : α → Bytes → Option α}
    (h : ∀ s t, (f s t).toOption = g s t.str) (ws : List ConfToken) (s : α) :
    (ws.foldlM f s).toOption = (texts ws).foldlM g s := by
  rw [toOption_foldlM, texts, List.foldlM_map]
  simp only [h]

theorem foldlM_some (f : α → β → α) (l : List β) (s : α) :
    l.foldlM (fun s t => some (f s t)) s = some (l.foldl f s) := by
  induction l generalizing s with
  | nil => rfl
  | cons t l ih => exact ih (f s t)

/-- A handler whose last word is used with every other. -/
theorem toOption_lastArgValue {set : ConfToken → α → ConfToken → Except ConfError α}
    {g : Bytes → α → Bytes → Option α} (h : ∀ last s t, (set last s t).toOption = g last.str s t.str)
    (d : ConfToken) (ws : List ConfToken) (s : α) :
    (lastArgValue set d ws s).toOption =
      match texts ws with
      | w :: w' :: args =>
        (w :: w' :: args).dropLast.foldlM
          (g ((w :: w' :: args).getLast (List.cons_ne_nil _ _))) s
      | _ => none := by
  match ws with
  | [] => rfl
  | [_] => rfl
  | w :: w' :: ws =>
    have hlast : (w :: w' :: ws).getLast? = some ((w :: w' :: ws).getLast (List.cons_ne_nil _ _)) :=
      List.getLast?_eq_getLast_of_ne_nil _
    have hloop := toOption_foldlM_texts (h ((w :: w' :: ws).getLast (List.cons_ne_nil _ _)))
      (w :: w' :: ws).dropLast s
    have hget : (w.str :: w'.str :: ws.map ConfToken.str).getLast (List.cons_ne_nil _ _) =
        ((w :: w' :: ws).getLast (List.cons_ne_nil _ _)).str :=
      List.getLast_map (f := ConfToken.str) (l := w :: w' :: ws) (List.cons_ne_nil _ _)
    rw [lastArgValue, hlast]
    refine (congrArg Except.toOption (if_pos (by simp))).trans (hloop.trans ?_)
    simp only [texts, List.map_dropLast, List.map_cons, hget]

end ConfFile

theorem LocationDirective.toOption_set (dir : LocationDirective) (d : ConfToken)
    (ws : List ConfToken) (location : LocationBlock) :
    (dir.set d ws location).toOption = dir.apply (texts ws) location := by
  cases dir with
  | root | clientBodyUploadPath | clientBodyTempPath => rcases ws with _ | ⟨_, _ | _⟩ <;> rfl
  | allow =>
    cases ws with
    | nil => rfl
    | cons w ws =>
      refine toOption_foldlM_texts (fun location method => ?_) (w :: ws) location
      rw [allowMethods]
      cases location.allowMethod method.str <;> rfl
  | clientMaxBodySize =>
    rcases ws with _ | ⟨value, _ | _⟩
    · rfl
    · show (takeMaxBodySize d value location).toOption =
        (stoi 0 uint32Max value.str).map location.setMaxBodySize
      unfold takeMaxBodySize
      cases stoi 0 uint32Max value.str <;> rfl
    · rfl
  | autoindex =>
    rcases ws with _ | ⟨value, _ | _⟩
    · rfl
    · show (takeDirListing d value location).toOption = location.setDirListing value.str
      unfold takeDirListing
      cases location.setDirListing value.str <;> rfl
    · rfl
  | redirect =>
    rcases ws with _ | ⟨code, _ | ⟨body, _ | _⟩⟩
    · rfl
    · rfl
    · show (redirectionValue d [code, body] location).toOption =
        (stoi 0 uint16Max code.str).bind fun status => location.setRedirect status.toNat body.str
      unfold redirectionValue
      dsimp only
      cases stoi 0 uint16Max code.str with
      | none => rfl
      | some status =>
        dsimp only [Option.bind_some]
        cases location.setRedirect status.toNat body.str <;> rfl
    · rfl
  | index =>
    cases ws with
    | nil => rfl
    | cons w ws =>
      refine (toOption_foldlM_texts (g := fun location name => some (location.addIndex name))
        (fun _ _ => rfl) (w :: ws) location).trans ?_
      exact foldlM_some LocationBlock.addIndex (texts (w :: ws)) location
  | cgi =>
    refine (toOption_lastArgValue (g := fun binary location ext => some (location.addCGI ext binary))
      (fun _ _ _ => rfl) d ws location).trans ?_
    rcases ws with _ | ⟨_, _ | _⟩
    · rfl
    · rfl
    · exact foldlM_some _ _ location

theorem ServerLine.toOption_set (root : Path) (dir : ServerLine) (d : ConfToken)
    (ws : List ConfToken) (server : ServerBlock) :
    (dir.set root d ws server).toOption = dir.apply root (texts ws) server := by
  cases dir with
  | listen =>
    rcases ws with _ | ⟨value, _ | _⟩
    · rfl
    · show (takeHost d value server).toOption = (listenHost value.str).map server.addHost
      unfold takeHost
      cases listenHost value.str <;> rfl
    · rfl
  | serverName =>
    cases ws with
    | nil => rfl
    | cons w ws =>
      refine (toOption_foldlM_texts (g := fun server name => some (server.addName name))
        (fun _ _ => rfl) (w :: ws) server).trans ?_
      exact foldlM_some ServerBlock.addName (texts (w :: ws)) server
  | errorPage =>
    show (errorPageValue root d ws server).toOption = _
    rw [errorPageValue]
    split_ifs with hroot hargs
    · rcases ws with _ | ⟨_, _ | _⟩
      · exact absurd hargs (by decide)
      · exact absurd hargs (by simp)
      · exact (if_pos hroot).symm
    · rcases ws with _ | ⟨_, _ | _⟩
      · rfl
      · rfl
      · exact absurd (by simp) hargs
    · refine (toOption_lastArgValue (g := fun last server code => (errorStatus code).map fun status =>
        server.addErrorPage status (Path.ofString (root.str ++ last))) (fun last server code => ?_)
        d ws server).trans ?_
      · unfold addErrorPages
        cases errorStatus code.str <;> rfl
      · rcases ws with _ | ⟨_, _ | _⟩
        · rfl
        · rfl
        · exact (if_neg hroot).symm

/-! ## Entries as settings -/

/-- An entry of a server block, as strings: the tokens without their line numbers. -/
inductive Entry where
  | line (dir : ServerLine) (args : List Bytes)
  | setting (dir : LocationDirective) (args : List Bytes)
  | location (target : Bytes) (settings : List (LocationDirective × List Bytes))
  deriving DecidableEq

/-- The location that a list of settings describes, unless one of them or the path is refused. -/
def locationBlock (target : Bytes) (settings : List (LocationDirective × List Bytes)) :
    Option LocationBlock :=
  if (Path.ofString (target ++ [slash])).isOriginForm then
    settings.foldlM (fun location s => s.1.apply s.2 location)
      { path := Path.ofString (target ++ [slash]) }
  else none

namespace Entry

/-- What an entry does to the scope of its block. -/
def apply : Entry → ServerScope → Option ServerScope
  | line dir args, scope =>
    (dir.apply scope.root args scope.server).map fun server => { scope with server := server }
  | setting dir args, scope =>
    (dir.apply args scope.globalLocation).map fun location =>
      { scope with globalLocation := location, root := location.root }
  | location target settings, scope =>
    (locationBlock target settings).map fun location =>
      { scope with server := scope.server.addLocation location }

end Entry

/-- The scope that a list of entries leads to. -/
def serverScope (entries : List Entry) : Option ServerScope :=
  entries.foldlM (fun scope e => e.apply scope) {}

/-- The server block that a list of entries describes: what `_serverDirective` makes of them, up to its
errors. -/
def serverBlock (entries : List Entry) : Option ServerBlock :=
  (serverScope entries).map ServerScope.finish

/-! ## The entries of a block of tokens -/

/-- The setting that a line of a location makes. -/
def LocationLine.setting (l : LocationLine) : LocationDirective × List Bytes := (l.dir, texts l.args)

/-- The entry without the lines of the file. -/
def ServerEntry.text : ServerEntry → Entry
  | line l => .line l.dir (texts l.args)
  | setting l => .setting l.dir (texts l.args)
  | location e => .location e.target.str (e.lines.map LocationLine.setting)

/-- The entries of a block without the lines of the file. -/
def Block.texts (b : Block ServerEntry.items) : List Entry := b.body.map ServerEntry.text

theorem LocationEntry.toOption_block (e : LocationEntry) :
    e.block.toOption = locationBlock e.target.str (e.lines.map LocationLine.setting) := by
  unfold block locationBlock path
  by_cases hpath : (Path.ofString (e.target.str ++ [slash])).isOriginForm = true
  · rw [if_neg (by rw [hpath]; exact Bool.false_ne_true), if_pos hpath, toOption_foldlM,
      List.foldlM_map]
    exact congrArg (fun f => List.foldlM f _ e.lines)
      (funext fun location => funext fun l => l.dir.toOption_set l.directive l.args location)
  · rw [if_pos (by simpa using hpath), if_neg hpath]
    rfl

theorem ServerEntry.toOption_eval (e : ServerEntry) (scope : ServerScope) :
    (e.eval scope).toOption = e.text.apply scope := by
  cases e with
  | line l =>
    rw [eval, toOption_map, ServerLine.toOption_set]
    rfl
  | setting l =>
    rw [eval, toOption_map]
    exact congrArg _ (l.dir.toOption_set l.directive l.args scope.globalLocation)
  | location e =>
    rw [eval, toOption_map, e.toOption_block]
    rfl

/-- The scope of a block is that of its entries. -/
theorem scope_toOption (b : Block ServerEntry.items) :
    (Item.scope b).toOption = serverScope b.texts := by
  rw [Item.scope, serverScope, Block.texts, toOption_foldlM, List.foldlM_map]
  exact congrArg (fun f => List.foldlM f _ b.body)
    (funext fun scope => funext fun e => e.toOption_eval scope)

/-- **Server blocks.**  `_serverDirective` adds to the configuration the block that the entries
describe, and throws where they describe none. -/
theorem serverDirective_iff {tokens rest : List ConfToken} {token : Nat}
    {b : Block ServerEntry.items} {conf : ConfFile} {server : ServerBlock}
    (hdrop : tokens.drop token = b.init ++ b.closing :: rest) :
    (∃ conf', serverDirective tokens token conf = .ok (token + b.init.length, conf') ∧
        conf'.blocks = conf.blocks ++ [server]) ↔ serverBlock b.texts = some server := by
  rw [serverDirective_eq b conf hdrop, serverBlock, ← scope_toOption]
  cases Item.scope b with
  | error e => simp [Except.toOption, Except.map]
  | ok scope => simp [Except.toOption, Except.map]

/-- What `_serverDirective` accepts is a block. -/
theorem exists_block_of_serverDirective {tokens : List ConfToken} {token token' : Nat}
    {conf conf' : ConfFile} (h : serverDirective tokens token conf = .ok (token', conf')) :
    ∃ (b : Block ServerEntry.items) (rest : List ConfToken) (server : ServerBlock),
      tokens.drop token = b.init ++ b.closing :: rest ∧ serverBlock b.texts = some server ∧
        conf'.blocks = conf.blocks ++ [server] := by
  by_cases hlt : token < tokens.length
  · obtain ⟨t, after, hcons⟩ := exists_drop_of_lt hlt
    rcases Block.exists_or_error (reads_serverBody tokens) ({} : ServerScope) hcons with
      ⟨b, rest, -, heq⟩ | ⟨e, he⟩
    · have hdrop := hcons.trans heq
      rw [serverDirective_eq b conf hdrop] at h
      cases hscope : Item.scope b with
      | error e =>
        rw [hscope] at h
        cases h
      | ok scope =>
        rw [hscope] at h
        obtain ⟨rfl, rfl⟩ := Prod.mk.inj (Except.ok.inj h)
        refine ⟨b, rest, scope.finish, hdrop, ?_, rfl⟩
        rw [serverBlock, ← scope_toOption, hscope]
        rfl
    · rw [serverDirective, bind_part_error he _] at h
      cases h
  · have hnone : (deref tokens token : Except Halt ConfToken) = .error .outOfRange := by
      rw [deref, List.getElem?_eq_none (not_lt.mp hlt)]
    have hcount : countBlockArgs tokens token = .error .outOfRange := by
      rw [countBlockArgs, hnone]
      rfl
    rw [serverDirective, readBlock, hcount] at h
    cases h

end Webserv
