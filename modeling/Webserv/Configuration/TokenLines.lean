import Webserv.Configuration.Tokens

/-!
# The tokens of the lines of a file

The scanner of a line collects the characters of a word and puts the word out at a blank, a metacharacter, a
comment or the end of the line.  The lines are counted in a `uint32_t`.

* `IsMeta`, `IsWord`: what a token can be.
* `tokenize_eq_map`: the strings of a line do not depend on its number.
* `tokenizeLoop_join`: the words of a line are read again from a line of their own.
* `tokens_roundTrip`: the three laws of the tokens of a file.

## Why the strings are taken apart from the numbers

A token has a string and the number of its line.  The scanner gives all tokens of a line the same number and
never looks at it, so a line has strings of its own (`lineStrings`), and its tokens are these with the
number put to each.  What is said about strings is then an induction over the characters of one line, and
what is said about numbers one over the lines.

## Why the round trip goes through one line

The tokens of a file, written on one line with a blank between each two, are scanned into the same strings.
This is the law that says that a token is one: it has no character that would end it, or it is a
metacharacter, and there is nothing else to a file than its tokens.  Comments and repeated blanks are lost
on the way, as they should be.  Line numbers are lost too, since they wrap: the token on line 2^32 carries
the number 0.
-/

namespace Webserv
namespace ConfFile

/-- A single `;`, `{` or `}`. -/
def IsMeta (s : Bytes) : Prop := s = [semicolon] ∨ s = [blockOpen] ∨ s = [blockClose]

/-- A character of a word. -/
def IsWordChar (c : Byte) : Prop := isspace c = false ∧ isMetachar c = false ∧ isComment c = false

/-- A string that is not empty, without blanks, metacharacters and comments. -/
def IsWord (s : Bytes) : Prop := s ≠ [] ∧ ∀ c ∈ s, IsWordChar c

theorem isMeta_of_isMetachar {c : Byte} (h : isMetachar c = true) : IsMeta [c] := by
  unfold isMetachar at h
  simp only [Bool.or_eq_true, decide_eq_true_eq, or_assoc] at h
  rcases h with rfl | rfl | rfl
  · exact Or.inl rfl
  · exact Or.inr (Or.inl rfl)
  · exact Or.inr (Or.inr rfl)

/-! ## One line -/

/-- The strings of the tokens of a line, without its number. -/
def lineStrings (line : Bytes) : List Bytes := (tokenize line 0).map ConfToken.str

theorem map_pushToken (index : Nat) (token : Bytes) :
    pushToken index token = (pushToken 0 token).map fun t => ⟨t.str, index⟩ := by
  unfold pushToken
  split_ifs <;> rfl

/-- The tokens of a line differ from one index to another in the index alone. -/
theorem tokenizeLoop_eq_map (index : Nat) : ∀ line token : Bytes,
    tokenizeLoop index line token = (tokenizeLoop 0 line token).map fun t => ⟨t.str, index⟩
  | [], token => map_pushToken index token
  | c :: line, token => by
    rw [tokenizeLoop, tokenizeLoop]
    split_ifs with hcomment hcut hmeta
    · exact map_pushToken index token
    · rw [map_pushToken index token, tokenizeLoop_eq_map index line [], List.map_append, List.map_append]
      rfl
    · rw [map_pushToken index token, tokenizeLoop_eq_map index line [], List.map_append, List.map_append]
      rfl
    · exact tokenizeLoop_eq_map index line (token ++ [c])

/-- **One number for a line.** -/
theorem tokenize_eq_map (line : Bytes) (index : Nat) :
    tokenize line index = (lineStrings line).map fun s => ⟨s, index⟩ := by
  rw [lineStrings, List.map_map]
  exact tokenizeLoop_eq_map index line []

theorem isWord_of_mem_pushToken {index : Nat} {token : Bytes} {t : ConfToken}
    (htoken : ∀ c ∈ token, IsWordChar c) (ht : t ∈ pushToken index token) : IsWord t.str := by
  unfold pushToken at ht
  split_ifs at ht with hempty
  · cases ht
  · rw [List.mem_singleton] at ht
    subst ht
    exact ⟨fun hnil => hempty (List.isEmpty_iff.mpr hnil), htoken⟩

/-- The characters that are collected are those of a word. -/
theorem isMeta_or_isWord_of_mem {index : Nat} {t : ConfToken} : ∀ {line token : Bytes},
    (∀ c ∈ token, IsWordChar c) → t ∈ tokenizeLoop index line token → IsMeta t.str ∨ IsWord t.str
  | [], _, htoken, ht => Or.inr (isWord_of_mem_pushToken htoken ht)
  | c :: line, token, htoken, ht => by
    rw [tokenizeLoop] at ht
    split_ifs at ht with hcomment hcut hmeta
    · exact Or.inr (isWord_of_mem_pushToken htoken ht)
    · rw [List.mem_append, List.mem_append, List.mem_singleton] at ht
      rcases ht with (ht | rfl) | ht
      · exact Or.inr (isWord_of_mem_pushToken htoken ht)
      · exact Or.inl (isMeta_of_isMetachar hmeta)
      · exact isMeta_or_isWord_of_mem (fun _ hc => absurd hc List.not_mem_nil) ht
    · rw [List.append_nil, List.mem_append] at ht
      rcases ht with ht | ht
      · exact Or.inr (isWord_of_mem_pushToken htoken ht)
      · exact isMeta_or_isWord_of_mem (fun _ hc => absurd hc List.not_mem_nil) ht
    · refine isMeta_or_isWord_of_mem (fun d hd => ?_) ht
      rcases List.mem_append.mp hd with hd | hd
      · exact htoken d hd
      · rw [Bool.or_eq_true, not_or, Bool.not_eq_true, Bool.not_eq_true] at hcut
        rw [List.mem_singleton] at hd
        exact hd ▸ ⟨hcut.1, hcut.2, Bool.eq_false_iff.mpr hcomment⟩

/-! ## A line of words -/

/-- A word is collected. -/
theorem tokenizeLoop_append {index : Nat} {rest : Bytes} : ∀ {w token : Bytes}, (∀ c ∈ w, IsWordChar c) →
    tokenizeLoop index (w ++ rest) token = tokenizeLoop index rest (token ++ w)
  | [], token, _ => by rw [List.nil_append, List.append_nil]
  | c :: w, token, hw => by
    obtain ⟨hspace, hmeta, hcomment⟩ := hw c List.mem_cons_self
    have ih := @tokenizeLoop_append index rest w (token ++ [c]) fun d hd => hw d (List.mem_cons_of_mem c hd)
    rw [List.cons_append, tokenizeLoop, hspace, hmeta, hcomment, if_neg Bool.false_ne_true,
      if_neg (by decide), ih, List.append_assoc, List.singleton_append]

/-- A blank puts out what was collected. -/
theorem tokenizeLoop_space (index : Nat) (rest token : Bytes) :
    tokenizeLoop index (space :: rest) token = pushToken index token ++ tokenizeLoop index rest [] := by
  rw [tokenizeLoop, if_neg (by decide), if_pos (by decide), if_neg (by decide), List.append_nil]

theorem tokenizeLoop_meta {index : Nat} {s : Bytes} (hs : IsMeta s) (rest : Bytes) :
    tokenizeLoop index (s ++ rest) [] = ⟨s, index⟩ :: tokenizeLoop index rest [] := by
  rcases hs with rfl | rfl | rfl <;> rfl

/-- The first string of a line, at its end or before a blank. -/
theorem tokenizeLoop_first {index : Nat} {s : Bytes} (hs : IsMeta s ∨ IsWord s) :
    tokenizeLoop index s [] = [⟨s, index⟩] ∧
      ∀ rest, tokenizeLoop index (s ++ space :: rest) [] = ⟨s, index⟩ :: tokenizeLoop index rest [] := by
  rcases hs with hs | hs
  · refine ⟨?_, fun rest => ?_⟩
    · have hend := @tokenizeLoop_meta index s hs []
      rwa [List.append_nil] at hend
    · rw [tokenizeLoop_meta hs, tokenizeLoop_space]
      rfl
  · have hpush : pushToken index s = [⟨s, index⟩] := by
      rw [pushToken, if_neg (by rw [List.isEmpty_iff]; exact hs.1)]
    refine ⟨?_, fun rest => ?_⟩
    · have hend := @tokenizeLoop_append index [] s [] hs.2
      rwa [List.append_nil, List.nil_append, tokenizeLoop, hpush] at hend
    · rw [tokenizeLoop_append hs.2, tokenizeLoop_space, List.nil_append, hpush]
      rfl

/-- **The strings on a line of their own** are its tokens again: a word ends at the blank behind it, and
nowhere before. -/
theorem tokenizeLoop_join (index : Nat) : ∀ {strings : List Bytes}, (∀ s ∈ strings, IsMeta s ∨ IsWord s) →
    tokenizeLoop index (List.intercalate [space] strings) [] = strings.map fun s => ⟨s, index⟩
  | [], _ => rfl
  | [s], h => by
    rw [List.intercalate_singleton]
    exact (tokenizeLoop_first (h s List.mem_cons_self)).1
  | s :: t :: strings, h => by
    rw [List.intercalate_cons_cons, List.append_assoc, List.singleton_append,
      (tokenizeLoop_first (h s List.mem_cons_self)).2,
      tokenizeLoop_join index fun u hu => h u (List.mem_cons_of_mem s hu)]
    rfl

/-! ## All lines -/

theorem toUInt32_succ (n : Nat) : toUInt32 ((toUInt32 n : Nat) + 1) = toUInt32 (n + 1) := by
  unfold toUInt32
  omega

/-- The tokens come line by line, those of a line with the number that it is given. -/
def Numbered (number : Nat → Nat) (lines : List Bytes) : Prop :=
  tokenizeLines lines 0 = (lines.zipIdx 1).flatMap fun l => (lineStrings l.1).map fun s => ⟨s, number l.2⟩

theorem tokenizeLines_eq : ∀ (lines : List Bytes) (n : Nat),
    tokenizeLines lines (toUInt32 n) =
      (lines.zipIdx (n + 1)).flatMap fun l => (lineStrings l.1).map fun s => ⟨s, toUInt32 l.2⟩
  | [], _ => rfl
  | line :: lines, n => by
    have ih := tokenizeLines_eq lines (n + 1)
    rw [tokenizeLines, toUInt32_succ, tokenize_eq_map, List.zipIdx_cons, List.flatMap_cons, ← ih]
    rfl

theorem mem_tokenizeLines {t : ConfToken} : ∀ {lines : List Bytes} {n : Nat},
    t ∈ tokenizeLines lines n → ∃ line index, t ∈ tokenize line index
  | line :: lines, n, ht => by
    rw [tokenizeLines, List.mem_append] at ht
    rcases ht with ht | ht
    · exact ⟨line, _, ht⟩
    · exact mem_tokenizeLines ht

/-- **The tokens of a file**: each is a metacharacter or a word, and carries the number of its line as a
`uint32_t`; and on a line of their own they are the same tokens. -/
theorem tokens_roundTrip (lines : List Bytes) :
    (∀ t ∈ tokenizeLines lines 0, IsMeta t.str ∨ IsWord t.str) ∧ Numbered (fun n => toUInt32 n) lines ∧
      ∀ index, (tokenize (List.intercalate [space] ((tokenizeLines lines 0).map ConfToken.str)) index).map
        ConfToken.str = (tokenizeLines lines 0).map ConfToken.str := by
  have hkinds : ∀ t ∈ tokenizeLines lines 0, IsMeta t.str ∨ IsWord t.str := by
    intro t ht
    obtain ⟨line, index, hline⟩ := mem_tokenizeLines ht
    exact isMeta_or_isWord_of_mem (fun _ hc => absurd hc List.not_mem_nil) hline
  refine ⟨hkinds, tokenizeLines_eq lines 0, fun index => ?_⟩
  have hstrings : ∀ s ∈ (tokenizeLines lines 0).map ConfToken.str, IsMeta s ∨ IsWord s := by
    intro s hs
    obtain ⟨t, ht, rfl⟩ := List.mem_map.mp hs
    exact hkinds t ht
  rw [tokenize, tokenizeLoop_join index hstrings, List.map_map]
  exact List.map_id _

/-- A word behind `n` empty lines. -/
def wordBehind (n : Nat) : List Bytes := List.replicate n [] ++ [bytes "a"]

theorem tokenizeLines_wordBehind : ∀ n m : Nat,
    tokenizeLines (wordBehind n) (toUInt32 m) = [⟨bytes "a", toUInt32 ((m + n : Nat) + 1)⟩]
  | 0, m => by
    rw [wordBehind, List.replicate_zero, List.nil_append, tokenizeLines, toUInt32_succ]
    rfl
  | n + 1, m => by
    have ih := tokenizeLines_wordBehind n (m + 1)
    rw [Nat.add_right_comm, Nat.add_assoc] at ih
    rw [wordBehind, List.replicate_succ, List.cons_append, tokenizeLines, toUInt32_succ]
    exact ih

/-- The word on line `2 ^ 32` carries the number 0. -/
theorem not_numbered :
    tokenizeLines (wordBehind (2 ^ 32 - 1)) 0 = [⟨bytes "a", 0⟩] ∧
      ¬ Numbered (fun n => n) (wordBehind (2 ^ 32 - 1)) := by
  have hzero : tokenizeLines (wordBehind (2 ^ 32 - 1)) 0 = [⟨bytes "a", 0⟩] :=
    tokenizeLines_wordBehind (2 ^ 32 - 1) 0
  refine ⟨hzero, fun h => ?_⟩
  rw [Numbered, hzero] at h
  -- no line has the number 0
  have hmem : (⟨bytes "a", 0⟩ : ConfToken) ∈ ((wordBehind (2 ^ 32 - 1)).zipIdx 1).flatMap fun l =>
      (lineStrings l.1).map fun s => ⟨s, l.2⟩ := h ▸ List.mem_singleton_self _
  obtain ⟨l, hl, ht⟩ := List.mem_flatMap.mp hmem
  obtain ⟨s, -, hs⟩ := List.mem_map.mp ht
  have hle := (List.mem_zipIdx hl).1
  have hline : l.2 = 0 := congrArg ConfToken.line hs
  omega

end ConfFile
end Webserv
