import Webserv.Location
import Webserv.Lib.TokenCursor

/-!
# The tokens of a configuration file

`ConfToken`, `ConfFile::_tokenize` and what the directives share: the counts of the arguments ahead of the
cursor, and the texts of the errors.  The cursor is a position in the list of tokens; to read a token at or
past the end halts with `outOfRange`, which no C++ program reports, and that the parser never does so is a
theorem about it.  The counts of arguments are `uint32_t` in the source; a file has fewer than `2^32`
tokens, so they are naturals here.

* `tokenize`, `tokenizeFile`: the scanner.
* `countArgs`, `countBlockArgs`: the look-ahead of a directive and of a block.
* `IsLine`: what a look-ahead that succeeds has seen.

## Why a look-ahead

Every directive begins by counting the words up to its `;` or `{`, before it looks at any of them.  A count
that comes upon another metacharacter or upon the end of the file throws.  So a handler that goes on knows
that its words are there: the dereferences that follow are inside the list.  `IsLine` is this knowledge, as
an equation for the tokens from the cursor on, a directive, its words, the token that ends them and a rest.
All handlers are described with it, and none has to argue about positions.

## Why the error texts are here

An error has a constructor for each function that writes one, with the tokens the function is given, and
`what` makes the text.  The parser passes errors on as values, and the texts are needed where `main` reports
them.
-/

namespace Webserv

/-! ## Tokens -/

structure ConfToken where
  str : Bytes
  line : Nat
  deriving DecidableEq

abbrev semicolon : Byte := 59
abbrev blockOpen : Byte := 123
abbrev blockClose : Byte := 125

namespace ConfToken

/-- `operator==(const char)`. -/
def is (t : ConfToken) (c : Byte) : Bool := t.str = [c]

def isMetatoken (t : ConfToken) : Bool := t.is blockOpen || t.is blockClose || t.is semicolon

end ConfToken

/-! ## The errors -/

/-- The message of a `ConfigurationException`: the function that writes it, and its arguments. -/
inductive ConfError where
  | cannotOpen (strerror : Bytes)
  | unkwownDirective (error : ConfToken)
  | missingOpening (error : ConfToken) (c : Byte)
  | invalidArgumentNumber (error : ConfToken)
  | unexpectedEOF (error : ConfToken) (c : Byte)
  | unexpectedEOFEither (error : ConfToken) (c₁ c₂ : Byte)
  | unexpectedToken (error : ConfToken)
  | hostNotFound (error host : ConfToken)
  | invalidMethod (method : ConfToken)
  | invalidValue (directive value : ConfToken)
  | invalidValueExpected (directive inval : ConfToken) (expected₁ expected₂ : Bytes)
  | invalidPath (directive path : ConfToken)
  deriving DecidableEq

/-- `ft::quoted`. -/
def quoted (element : Bytes) : Bytes := [34] ++ element ++ [34]

/-- The text of an error in a file of the given path. -/
def ConfError.what (path : Bytes) : ConfError → Bytes
  | cannotOpen strerror => path ++ bytes ": " ++ strerror
  | unkwownDirective error =>
    bytes "unknown directive " ++ quoted error.str ++ place error
  | missingOpening error c =>
    bytes "directive " ++ quoted error.str ++ bytes " has no opening " ++ quoted [c] ++ place error
  | invalidArgumentNumber error =>
    bytes "invalid number of arguments in " ++ quoted error.str ++ bytes " directive" ++ place error
  | unexpectedEOF error c =>
    bytes "unexpected end of file, expecting " ++ quoted [c] ++ place error
  | unexpectedEOFEither error c₁ c₂ =>
    bytes "unexpected end of file, expecting " ++ quoted [c₁] ++ bytes " or " ++ quoted [c₂] ++
      place error
  | unexpectedToken error => bytes "unexpected " ++ quoted error.str ++ place error
  | hostNotFound error host =>
    bytes "host not found in " ++ quoted host.str ++ bytes " of the " ++ quoted error.str ++
      bytes " directive" ++ place error
  | invalidMethod method => bytes "invalid method " ++ quoted method.str ++ place method
  | invalidValue directive value =>
    quoted directive.str ++ bytes " directive invalid value" ++ place value
  | invalidValueExpected directive inval expected₁ expected₂ =>
    bytes "invalid value " ++ quoted inval.str ++ bytes " in " ++ quoted directive.str ++
      bytes " directive, it must be " ++ quoted expected₁ ++ bytes " or " ++ quoted expected₂ ++
      place inval
  | invalidPath directive target =>
    bytes "invalid path " ++ quoted target.str ++ bytes " in " ++ quoted directive.str ++
      bytes " directive, it must start with " ++ quoted [slash] ++ place target
where
  /-- ` in <path>:<line>`. -/
  place (t : ConfToken) : Bytes := bytes " in " ++ path ++ bytes ":" ++ numToStr t.line

open TokenCursor (deref deref_of_drop drop_cons exists_drop_of_lt)

/-- How a handler ends without an answer. -/
abbrev Halt := TokenCursor.Halt ConfError

namespace ConfFile

/-! ## `_tokenize` -/

/-- `ConfFile::_isMetachar`. -/
def isMetachar (c : Byte) : Bool := c = semicolon || c = blockOpen || c = blockClose

/-- `ConfFile::_isComment`. -/
def isComment (c : Byte) : Bool := c = 35

/-- `if (!token.empty()) _tokens.push_back(ConfToken(token, index))`. -/
def pushToken (index : Nat) (token : Bytes) : List ConfToken :=
  if token.isEmpty then [] else [⟨token, index⟩]

/-- The loop of `_tokenize`, with its `token`: the letters of the word that has not ended yet. -/
def tokenizeLoop (index : Nat) : Bytes → Bytes → List ConfToken
  | [], token => pushToken index token
  | c :: line, token =>
    if isComment c then pushToken index token
    else if isspace c || isMetachar c then
      pushToken index token ++ (if isMetachar c then [⟨[c], index⟩] else []) ++
        tokenizeLoop index line []
    else tokenizeLoop index line (token ++ [c])

/-- `ConfFile::_tokenize`: the tokens of a line. -/
def tokenize (line : Bytes) (index : Nat) : List ConfToken := tokenizeLoop index line []

/-- `_tokenize(line, ++index)` for the lines that follow the one of number `index`, a `uint32_t`. -/
def tokenizeLines : List Bytes → Nat → List ConfToken
  | [], _ => []
  | line :: lines, index =>
    tokenize line (toUInt32 (index + 1)) ++ tokenizeLines lines (toUInt32 (index + 1))

/-- The tokens of a file.  `getline` does not report the empty string after the last line end, which
has no tokens. -/
def tokenizeFile (content : Bytes) : List ConfToken :=
  tokenizeLines (LexicalPath.segments lf content) 0

/-! ## The look-ahead -/

/-- The look-ahead of `_countArgs` and `_countBlockArgs` in the tokens after the directive. -/
def countLoop (stop : Byte) (atEnd : ConfError) : List ConfToken → Nat → Except Halt Nat
  | [], _ => .error (.exception atEnd)
  | t :: tokens, args =>
    if t.is stop then .ok args
    else if t.isMetatoken then .error (.exception (.unexpectedToken t))
    else countLoop stop atEnd tokens (args + 1)

/-- `ConfFile::_countArgs`. -/
def countArgs (tokens : List ConfToken) (directive : Nat) : Except Halt Nat := do
  let t ← deref tokens directive
  countLoop semicolon (.unexpectedEOF t semicolon) (tokens.drop (directive + 1)) 0

/-- `ConfFile::_countBlockArgs`. -/
def countBlockArgs (tokens : List ConfToken) (directive : Nat) : Except Halt Nat := do
  let t ← deref tokens directive
  countLoop blockOpen (.missingOpening t blockOpen) (tokens.drop (directive + 1)) 0

/-! ## What a look-ahead has seen -/

/-- Tokens none of which is a metacharacter: the arguments of a directive. -/
def Words (ws : List ConfToken) : Prop := ∀ w ∈ ws, w.isMetatoken = false

theorem words_cons {w : ConfToken} {ws : List ConfToken} :
    Words (w :: ws) ↔ w.isMetatoken = false ∧ Words ws := List.forall_mem_cons

/-- From the cursor on the list is a directive, its words, the token that ends them, and a rest. -/
structure IsLine (stop : Byte) (tokens : List ConfToken) (token : Nat) (d : ConfToken)
    (ws : List ConfToken) (s : ConfToken) (rest : List ConfToken) : Prop where
  drop_eq : tokens.drop token = d :: (ws ++ s :: rest)
  words : Words ws
  is_stop : s.is stop = true

/-- The loop of a count over words and the token that ends them. -/
theorem countLoop_append {stop : Byte} {atEnd : ConfError} {s : ConfToken} {rest : List ConfToken}
    (hstop : s.is stop = true) (hmeta : ∀ t : ConfToken, t.is stop = true → t.isMetatoken = true) :
    ∀ {ws : List ConfToken} {args : Nat}, Words ws →
      countLoop stop atEnd (ws ++ s :: rest) args = .ok (args + ws.length)
  | [], _, _ => by rw [List.nil_append, countLoop, if_pos hstop]; rfl
  | w :: ws, args, hws => by
    obtain ⟨hw, hws⟩ := words_cons.mp hws
    have hne : ¬ w.is stop = true := fun h => by rw [hmeta w h] at hw; cases hw
    rw [List.cons_append, countLoop, if_neg hne, if_neg (by rw [hw]; exact Bool.false_ne_true),
      countLoop_append hstop hmeta hws, List.length_cons, Nat.add_right_comm, Nat.add_assoc]

/-- A count either has seen words and the token that ends them, or throws. -/
theorem countLoop_cases (stop : Byte) (atEnd : ConfError) :
    ∀ (tokens : List ConfToken) (args : Nat),
      (∃ ws s rest, tokens = ws ++ s :: rest ∧ Words ws ∧ s.is stop = true) ∨
        ∃ e, countLoop stop atEnd tokens args = .error (.exception e)
  | [], _ => Or.inr ⟨atEnd, rfl⟩
  | t :: tokens, args => by
    by_cases hstop : t.is stop = true
    · exact Or.inl ⟨[], t, tokens, rfl, (fun _ h => nomatch h), hstop⟩
    · by_cases hmeta : t.isMetatoken = true
      · exact Or.inr ⟨.unexpectedToken t, by rw [countLoop, if_neg hstop, if_pos hmeta]⟩
      · rcases countLoop_cases stop atEnd tokens (args + 1) with ⟨ws, s, rest, rfl, hws, hs⟩ | ⟨e, he⟩
        · refine Or.inl ⟨t :: ws, s, rest, rfl, words_cons.mpr ⟨?_, hws⟩, hs⟩
          exact Bool.eq_false_iff.mpr hmeta
        · exact Or.inr ⟨e, by rw [countLoop, if_neg hstop, if_neg hmeta, he]⟩

theorem isMetatoken_of_semicolon (t : ConfToken) (h : t.is semicolon = true) :
    t.isMetatoken = true := by
  rw [ConfToken.isMetatoken, h, Bool.or_true]

theorem isMetatoken_of_blockOpen (t : ConfToken) (h : t.is blockOpen = true) :
    t.isMetatoken = true := by
  rw [ConfToken.isMetatoken, h, Bool.true_or, Bool.true_or]

theorem isMetatoken_of_blockClose (t : ConfToken) (h : t.is blockClose = true) :
    t.isMetatoken = true := by
  rw [ConfToken.isMetatoken, h, Bool.or_true, Bool.true_or]

section Line

variable {tokens ws rest : List ConfToken} {token : Nat} {d s : ConfToken}

theorem countArgs_of_isLine (h : IsLine semicolon tokens token d ws s rest) :
    countArgs tokens token = .ok ws.length := by
  rw [countArgs, deref_of_drop h.drop_eq, drop_cons h.drop_eq]
  exact (countLoop_append h.is_stop isMetatoken_of_semicolon h.words).trans (by rw [Nat.zero_add])

theorem countBlockArgs_of_isLine (h : IsLine blockOpen tokens token d ws s rest) :
    countBlockArgs tokens token = .ok ws.length := by
  rw [countBlockArgs, deref_of_drop h.drop_eq, drop_cons h.drop_eq]
  exact (countLoop_append h.is_stop isMetatoken_of_blockOpen h.words).trans (by rw [Nat.zero_add])

/-- From a cursor inside the list there is a line, or the count throws. -/
theorem isLine_or_error (stop : Byte) (atEnd : ConfToken → ConfError) (h : token < tokens.length) :
    (∃ d ws s rest, IsLine stop tokens token d ws s rest) ∨
      ∃ e, (do
        let t ← deref tokens token
        countLoop stop (atEnd t) (tokens.drop (token + 1)) 0) = .error (.exception e) := by
  obtain ⟨d, after, hcons⟩ := exists_drop_of_lt h
  rw [deref_of_drop hcons, drop_cons hcons]
  rcases countLoop_cases stop (atEnd d) after 0 with ⟨ws, s, rest, heq, hws, hs⟩ | he
  · exact Or.inl ⟨d, ws, s, rest, by rw [hcons, heq], hws, hs⟩
  · exact Or.inr he

theorem isLine_or_countArgs_error (h : token < tokens.length) :
    (∃ d ws s rest, IsLine semicolon tokens token d ws s rest) ∨
      ∃ e, countArgs tokens token = .error (.exception e) :=
  isLine_or_error semicolon (.unexpectedEOF · semicolon) h

theorem isLine_or_countBlockArgs_error (h : token < tokens.length) :
    (∃ d ws s rest, IsLine blockOpen tokens token d ws s rest) ∨
      ∃ e, countBlockArgs tokens token = .error (.exception e) :=
  isLine_or_error blockOpen (.missingOpening · blockOpen) h

end Line

end ConfFile
end Webserv
