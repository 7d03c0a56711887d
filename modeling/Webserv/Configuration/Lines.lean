import Webserv.Configuration.Directives

/-!
# What a directive does with its line

A directive and its words up to the `;` are a line.  What a handler makes of a line is a function of the
directive's token and the words alone: `LocationDirective.set`, `ServerLine.set` and `oneArgValue`.  The
handlers read lines (`ReadsLine`): they agree with these functions where there is a line, leave the cursor
on its `;`, and throw where there is none.

* `oneArgValue`, `eachArgValue`, `lastArgValue`: the values of lines.
* `ReadsLine`: a handler with the value it gives to lines.
* `readsLine_locationHandler`, `readsLine_serverHandler`, `readsLine_timeoutDirective`: all handlers.

## Why the cursor is left behind

A handler of the source is a walk over positions.  What it means is simpler: take the words, check them, and
change a setting.  The lemmas of this module are where the two meet, and they are the last in which a
position is computed.  The functions on lines have no cursor, no list of tokens and no way to read outside
of it, and what is said about configurations afterwards, inheritance, error pages, limits, is said about
them.

## Why there are four shapes

A handler takes one argument, or each of several, or uses its last argument with every other one, or two in
fixed places.  The third occurs for `cgi` and `error_page`, whose loop runs over all arguments but the last,
which was looked up before and is stepped over at the end.  For each shape the agreement is proved once,
with the check as a parameter.
-/

namespace Webserv
namespace ConfFile

variable {α : Type}

/-! ## The values of lines -/

/-- What `oneArg` makes of a line, apart from the cursor: the setting, or an error when there is not one
word. -/
def oneArgValue (set : ConfToken → ConfToken → α → Except ConfError α) (d : ConfToken)
    (ws : List ConfToken) (s : α) : Except ConfError α :=
  match ws with
  | [value] => set d value s
  | _ => .error (.invalidArgumentNumber d)

/-- A handler of one argument accepts one word only. -/
theorem exists_word_of_oneArgValue {set : ConfToken → ConfToken → α → Except ConfError α} {d : ConfToken}
    {ws : List ConfToken} {s s' : α} (h : oneArgValue set d ws s = .ok s') : ∃ w, ws = [w] := by
  match ws, h with
  | [w], _ => exact ⟨w, rfl⟩
  | [], h => cases h
  | _ :: _ :: _, h => cases h

/-- What `eachArg` makes of a line, apart from the cursor: the fold over its words, of which there is at
least one. -/
def eachArgValue (set : α → ConfToken → Except ConfError α) (d : ConfToken) (ws : List ConfToken)
    (s : α) : Except ConfError α :=
  match ws with
  | [] => .error (.invalidArgumentNumber d)
  | ws => ws.foldlM set s

/-- What a handler makes of a line whose last word is used with every other. -/
def lastArgValue (set : ConfToken → α → ConfToken → Except ConfError α) (d : ConfToken)
    (ws : List ConfToken) (s : α) : Except ConfError α :=
  match ws.getLast? with
  | none => .error (.invalidArgumentNumber d)
  | some last =>
    if 2 ≤ ws.length then ws.dropLast.foldlM (set last) s else .error (.invalidArgumentNumber d)

/-- What `_redirectionDirective` makes of a line. -/
def redirectionValue (d : ConfToken) (ws : List ConfToken) (location : LocationBlock) :
    Except ConfError LocationBlock :=
  match ws with
  | [code, body] =>
    match stoi 0 uint16Max code.str with
    | none => .error (.invalidValue d code)
    | some status =>
      match location.setRedirect status.toNat body.str with
      | none => .error (.invalidValue d body)
      | some location => .ok location
  | _ => .error (.invalidArgumentNumber d)

/-- What `_errorPageDirective` makes of a line. -/
def errorPageValue (root : Path) (d : ConfToken) (ws : List ConfToken) (server : ServerBlock) :
    Except ConfError ServerBlock :=
  if root.isEmpty then
    if 2 ≤ ws.length then .ok server else .error (.invalidArgumentNumber d)
  else
    lastArgValue (fun last => addErrorPages d (Path.ofString (root.str ++ last.str))) d ws server

end ConfFile

open ConfFile TokenCursor

/-- What the directives of a location make of a line. -/
def LocationDirective.set : LocationDirective → ConfToken → List ConfToken → LocationBlock →
    Except ConfError LocationBlock
  | root => oneArgValue takeRoot
  | allow => eachArgValue allowMethods
  | clientMaxBodySize => oneArgValue takeMaxBodySize
  | autoindex => oneArgValue takeDirListing
  | redirect => redirectionValue
  | index => eachArgValue addIndexes
  | cgi => lastArgValue addCGIs
  | clientBodyUploadPath => oneArgValue takeUploadPath
  | clientBodyTempPath => oneArgValue takeTempPath

/-- The directives of a server that are lines: all but `location`, which opens a block. -/
inductive ServerLine where
  | listen | serverName | errorPage
  deriving DecidableEq

namespace ServerLine

/-- Its key in `_serverDirectives`. -/
def directive : ServerLine → ServerDirective
  | listen => .listen
  | serverName => .serverName
  | errorPage => .errorPage

/-- What the directives of a server make of a line. -/
def set (root : Path) : ServerLine → ConfToken → List ConfToken → ServerBlock →
    Except ConfError ServerBlock
  | listen => oneArgValue takeHost
  | serverName => eachArgValue addNames
  | errorPage => errorPageValue root

end ServerLine

namespace ConfFile

/-! ## Handlers that read lines -/

/-- A handler with the value it gives to lines: on a line it has this value and leaves the cursor on the
`;`, elsewhere it throws. -/
structure ReadsLine (tokens : List ConfToken) (token : Nat)
    (value : ConfToken → List ConfToken → Except ConfError α) (r : Except Halt (Nat × α)) : Prop where
  of_isLine : ∀ {d ws s rest}, IsLine semicolon tokens token d ws s rest →
    r = (lift (value d ws)).map fun x => (token + 1 + ws.length, x)
  of_error : ∀ {e}, countArgs tokens token = .error (.exception e) → r = .error (.exception e)

section Reads

variable {tokens ws rest : List ConfToken} {token : Nat} {d t : ConfToken}

theorem enter_of_isLine (h : IsLine semicolon tokens token d ws t rest) (valid : Nat → Bool) :
    enter tokens token valid =
      if valid ws.length then .ok (d, ws.length) else .error (.exception (.invalidArgumentNumber d)) := by
  rw [enter, countArgs_of_isLine h, deref_of_drop h.drop_eq]
  rfl

theorem enter_of_error {e : ConfError} (h : countArgs tokens token = .error (.exception e))
    (valid : Nat → Bool) : enter tokens token valid = .error (.exception e) := by
  rw [enter, h]
  rfl

theorem readsLine_oneArg (set : ConfToken → ConfToken → α → Except ConfError α)
    (tokens : List ConfToken) (token : Nat) (s : α) :
    ReadsLine tokens token (fun d ws => oneArgValue set d ws s) (oneArg set tokens token s) where
  of_isLine {d ws t rest} h := by
    rw [oneArg, enter_of_isLine h]
    match ws, h with
    | [], _ => rfl
    | [value], h =>
      have hvalue : (deref tokens (token + 1) : Except Halt ConfToken) = .ok value :=
        deref_of_drop (drop_cons h.drop_eq)
      show ((deref tokens (token + 1) : Except Halt ConfToken) >>= fun value =>
        lift (set d value s) >>= _) = _
      rw [hvalue]
      show (lift (set d value s) >>= _) = (lift (set d value s)).map _
      cases set d value s <;> rfl
    | _ :: _ :: _, _ => rfl
  of_error h := by
    rw [oneArg, enter_of_error h]
    rfl

theorem readsLine_eachArg (set : α → ConfToken → Except ConfError α) (tokens : List ConfToken)
    (token : Nat) (s : α) :
    ReadsLine tokens token (fun d ws => eachArgValue set d ws s) (eachArg set tokens token s) where
  of_isLine {d ws t rest} h := by
    rw [eachArg, enter_of_isLine h]
    match ws, h with
    | [], _ => rfl
    | w :: ws, h =>
      have hloop := forEach_eq (fun s t => lift (set s t)) s (drop_cons h.drop_eq)
      rw [foldlM_lift] at hloop
      exact hloop
  of_error h := by
    rw [eachArg, enter_of_error h]
    rfl

/-- The loop over all arguments but the last, which is looked up before and stepped over after. -/
theorem lastArg_eq {init : List ConfToken} {last : ConfToken}
    (h : IsLine semicolon tokens token d (init ++ [last]) t rest) (f : α → ConfToken → Except ConfError α)
    (s : α) :
    (deref tokens (token + 1 + (init ++ [last]).length - 1) : Except Halt ConfToken) = .ok last ∧
      (do
        let (token, s) ← forEach tokens (fun s t => lift (f s t)) ((init ++ [last]).length - 1)
          (token + 1) s
        return (token + 1, s)) =
        (lift (init.foldlM f s)).map fun s => (token + 1 + (init ++ [last]).length, s) := by
  have hdrop : tokens.drop (token + 1) = init ++ last :: t :: rest := by
    rw [drop_cons h.drop_eq, List.append_assoc, List.singleton_append]
  rw [List.length_append, List.length_singleton, ← Nat.add_assoc, Nat.add_sub_cancel,
    Nat.add_sub_cancel, ← foldlM_lift, forEach_eq _ s hdrop]
  refine ⟨deref_of_drop (drop_append hdrop), ?_⟩
  cases init.foldlM (fun s t => lift (f s t)) s <;> rfl

theorem lastArgValue_concat (set : ConfToken → α → ConfToken → Except ConfError α) (d : ConfToken)
    {init : List ConfToken} (hinit : init ≠ []) (last : ConfToken) (s : α) :
    lastArgValue set d (init ++ [last]) s = init.foldlM (set last) s := by
  have hlength : 2 ≤ (init ++ [last]).length := by
    rw [List.length_append, List.length_singleton]
    have := List.length_pos_iff.mpr hinit
    omega
  rw [lastArgValue, List.getLast?_concat, List.dropLast_concat]
  exact if_pos hlength

/-- A list of at least two words ends in a word after others. -/
theorem exists_concat_of_two_le (h : 2 ≤ ws.length) :
    ∃ init last, ws = init ++ [last] ∧ init ≠ [] := by
  have hne : ws ≠ [] := fun heq => by simp [heq] at h
  refine ⟨ws.dropLast, ws.getLast hne, (List.dropLast_append_getLast hne).symm, fun heq => ?_⟩
  have hlength := congrArg List.length heq
  rw [List.length_dropLast, List.length_nil] at hlength
  omega

theorem lastArgValue_of_lt (set : ConfToken → α → ConfToken → Except ConfError α) (d : ConfToken)
    (h : ¬ 2 ≤ ws.length) (s : α) :
    lastArgValue set d ws s = .error (.invalidArgumentNumber d) := by
  unfold lastArgValue
  cases ws.getLast? with
  | none => rfl
  | some last => exact if_neg h

theorem readsLine_redirectionDirective (tokens : List ConfToken) (token : Nat)
    (location : LocationBlock) :
    ReadsLine tokens token (redirectionValue · · location)
      (redirectionDirective tokens token location) where
  of_isLine {d ws t rest} h := by
    rw [redirectionDirective, enter_of_isLine h]
    match ws, h with
    | [], _ => rfl
    | [_], _ => rfl
    | [code, body], h =>
      have hcode : (deref tokens (token + 1) : Except Halt ConfToken) = .ok code :=
        deref_of_drop (drop_cons h.drop_eq)
      have hbody : (deref tokens (token + 2) : Except Halt ConfToken) = .ok body :=
        deref_of_drop (drop_cons (drop_cons h.drop_eq))
      show ((deref tokens (token + 1) : Except Halt ConfToken) >>= fun code => _) = _
      rw [hcode, hbody]
      unfold redirectionValue
      dsimp only [bind, Except.bind]
      cases stoi 0 uint16Max code.str with
      | none => rfl
      | some status =>
        dsimp only
        cases location.setRedirect status.toNat body.str <;> rfl
    | _ :: _ :: _ :: _, _ => rfl
  of_error h := by
    rw [redirectionDirective, enter_of_error h]
    rfl

theorem readsLine_cgiDirective (tokens : List ConfToken) (token : Nat) (location : LocationBlock) :
    ReadsLine tokens token (fun d ws => LocationDirective.set .cgi d ws location)
      (cgiDirective tokens token location) where
  of_isLine {d ws t rest} h := by
    rw [cgiDirective, enter_of_isLine h]
    by_cases hargs : 2 ≤ ws.length
    · obtain ⟨init, binary, rfl, hinit⟩ := exists_concat_of_two_le hargs
      obtain ⟨hbinary, hloop⟩ := lastArg_eq h (addCGIs binary) location
      rw [if_pos (decide_eq_true hargs), LocationDirective.set, lastArgValue_concat _ _ hinit]
      refine Eq.trans ?_ hloop
      dsimp only [bind, Except.bind]
      rw [hbinary]
    · rw [if_neg (by simpa using hargs), LocationDirective.set, lastArgValue_of_lt _ _ hargs]
      rfl
  of_error h := by
    rw [cgiDirective, enter_of_error h]
    rfl

theorem readsLine_errorPageDirective (root : Path) (tokens : List ConfToken) (token : Nat)
    (server : ServerBlock) :
    ReadsLine tokens token (errorPageValue root · · server)
      (errorPageDirective root tokens token server) where
  of_isLine {d ws t rest} h := by
    rw [errorPageDirective, enter_of_isLine h, errorPageValue]
    by_cases hargs : 2 ≤ ws.length
    · obtain ⟨init, last, rfl, hinit⟩ := exists_concat_of_two_le hargs
      rw [if_pos (decide_eq_true hargs), if_pos hargs]
      by_cases hroot : root.isEmpty = true
      · rw [if_pos hroot]
        exact if_pos hroot
      · obtain ⟨hlast, hloop⟩ :=
          lastArg_eq h (addErrorPages d (Path.ofString (root.str ++ last.str))) server
        rw [if_neg hroot, lastArgValue_concat _ _ hinit]
        refine (if_neg hroot).trans (Eq.trans ?_ hloop)
        dsimp only [bind, Except.bind]
        rw [hlast]
    · rw [if_neg (by simpa using hargs), if_neg hargs, lastArgValue_of_lt _ _ hargs, ite_self]
      rfl
  of_error h := by
    rw [errorPageDirective, enter_of_error h]
    rfl

end Reads

/-- The handlers of a location read lines. -/
theorem readsLine_locationHandler (dir : LocationDirective) (tokens : List ConfToken) (token : Nat)
    (location : LocationBlock) :
    ReadsLine tokens token (dir.set · · location) (locationHandler dir tokens token location) := by
  cases dir with
  | redirect => exact readsLine_redirectionDirective tokens token location
  | cgi => exact readsLine_cgiDirective tokens token location
  | allow => exact readsLine_eachArg allowMethods tokens token location
  | index => exact readsLine_eachArg addIndexes tokens token location
  | root => exact readsLine_oneArg takeRoot tokens token location
  | clientMaxBodySize => exact readsLine_oneArg takeMaxBodySize tokens token location
  | autoindex => exact readsLine_oneArg takeDirListing tokens token location
  | clientBodyUploadPath => exact readsLine_oneArg takeUploadPath tokens token location
  | clientBodyTempPath => exact readsLine_oneArg takeTempPath tokens token location

/-- The handlers of a server other than `_locationDirective` read lines. -/
theorem readsLine_serverHandler (root : Path) (dir : ServerLine) (tokens : List ConfToken)
    (token : Nat) (server : ServerBlock) :
    ReadsLine tokens token (dir.set root · · server)
      (serverHandler root dir.directive tokens token server) := by
  cases dir with
  | listen => exact readsLine_oneArg takeHost tokens token server
  | serverName => exact readsLine_eachArg addNames tokens token server
  | errorPage => exact readsLine_errorPageDirective root tokens token server

theorem readsLine_timeoutDirective (type : Timeout) (tokens : List ConfToken) (token : Nat)
    (conf : ConfFile) :
    ReadsLine tokens token (fun d ws => oneArgValue (takeTimeout type) d ws conf)
      (timeoutDirective type tokens token conf) :=
  readsLine_oneArg _ tokens token conf

/-- A line is read, or the handler throws.  In the first case the cursor stands behind the `;` of the line. -/
theorem ReadsLine.cases {tokens : List ConfToken} {token : Nat}
    {value : ConfToken → List ConfToken → Except ConfError α} {r : Except Halt (Nat × α)}
    (h : ReadsLine tokens token value r) (hlt : token < tokens.length) :
    (∃ d ws s rest x, IsLine semicolon tokens token d ws s rest ∧ value d ws = .ok x ∧
        r = .ok (token + 1 + ws.length, x)) ∨
      ∃ e, r = .error (.exception e) := by
  rcases isLine_or_countArgs_error hlt with ⟨d, ws, s, rest, hline⟩ | ⟨e, he⟩
  · rw [h.of_isLine hline]
    cases hvalue : value d ws with
    | ok x => exact Or.inl ⟨d, ws, s, rest, x, hline, hvalue, rfl⟩
    | error e => exact Or.inr ⟨e, rfl⟩
  · exact Or.inr ⟨e, h.of_error he⟩

end ConfFile
end Webserv
