import Webserv.Configuration.Inheritance
import Webserv.ContentLength
import Webserv.Requests

/-!
# The numbers of the configuration

`ft::stoi` checks a number against the type it is asked for, and the number is narrowed afterwards: a body
limit is checked as a `uint32_t` and kept in an `int32_t`, whose `-1` means "not set"; a port is checked as
an `in_addr_t` and passed to `htons`, which takes 16 bits.

* `stoi_of_dressed`, `stoi_cases`: the strings that `ft::stoi` accepts as a `uint32_t`.
* `foldlM_maxBodySize`, `finalLocation_maxBodySize`: the body limit that a location ends with.
* `refused_iff`: which bodies the configured limit refuses.
* `listenHost_of_form`, `listens_iff`: the port that a `listen` line stores.

## Why a limit can turn into none

The argument of `client_max_body_size` is accepted up to 2^32 - 1.  From 2^31 on it becomes negative in the
field.  A negative limit is below every size, so every body is refused; and 2^32 - 1 becomes -1, which is
the sign for a setting that was not made, so that the limit is inherited or the default.  `refused_iff`
computes the limit of a location from the lines, through the fold and `fill`, and says exactly for which
numbers it does what was written.

## Why a port can turn into another

A port is checked as an unsigned number of 32 bits.  `htons` then takes 16 of them, so 65616 is the port 80.
Two ports below 2^16 are different in network order too (`htons_inj`), and this is why the condition is the
plain bound.
-/

namespace Webserv

open ConfFile TokenCursor

/-! ## `ft::stoi` -/

theorem stoi_eq_some_iff {min max v : Int} {str : Bytes} :
    stoi min max str = some v ↔
      (strtol (cstr str) 10).2 = [] ∧ (strtol (cstr str) 10).1 = v ∧ min ≤ v ∧ v ≤ max := by
  unfold stoi
  generalize strtol (cstr str) 10 = r
  dsimp only
  split_ifs with hbad
  · refine iff_of_false (fun h => nomatch h) ?_
    rintro ⟨hend, rfl, hmin, hmax⟩
    rcases hbad with hne | hlt | hgt
    · exact hne hend
    · omega
    · omega
  · rw [not_or, not_or, not_not] at hbad
    constructor
    · intro h
      obtain rfl := Option.some.inj h
      exact ⟨hbad.1, rfl, by omega, by omega⟩
    · rintro ⟨-, rfl, -⟩
      rfl

/-- A decimal number is accepted with its value, where that is in the range. -/
theorem stoi_of_dressed {str : Bytes} {v u : Int} (h : Dressed 10 (cstr str) v) :
    stoi 0 uint32Max str = some u ↔ u = v ∧ 0 ≤ v ∧ v ≤ uint32Max := by
  rw [stoi_eq_some_iff, strtol_of_dressed h]
  unfold toLong uint32Max
  constructor
  · rintro ⟨-, hvalue, hmin, hmax⟩
    omega
  · rintro ⟨rfl, hmin, hmax⟩
    refine ⟨rfl, ?_, hmin, hmax⟩
    dsimp only
    omega

/-- What is accepted is a decimal number, or nothing. -/
theorem stoi_cases {str : Bytes} {v : Int} (h : stoi 0 uint32Max str = some v) :
    cstr str = [] ∧ v = 0 ∨ Dressed 10 (cstr str) v := by
  obtain ⟨hend, hvalue, -⟩ := stoi_eq_some_iff.mp h
  rcases dressed_of_strtol hend with hnil | ⟨u, hdressed⟩
  · rw [hnil] at hvalue
    exact Or.inl ⟨hnil, hvalue.symm⟩
  · obtain ⟨rfl, -⟩ := (stoi_of_dressed hdressed).mp h
    exact Or.inr hdressed

/-! ## The body limit of a location -/

/-- The limit that the last of some lines gives, a decimal number as `ft::stoi` reads it. -/
def GivesLimit (lines : List (List Bytes)) (limit : Int) : Prop :=
  ∃ w, lines.getLast? = some [w] ∧ Dressed 10 (cstr w) limit

/-- The body limit at server level: the one given, or the default. -/
def ServerLimit (server : List Setting) (limit : Int) : Prop :=
  GivesLimit (LocationDirective.clientMaxBodySize.linesOf server) limit ∨
    LocationDirective.clientMaxBodySize.linesOf server = [] ∧
      limit = LocationBlock.defaultMaxBodySize

/-- What lines make of the limit: the last one counts, in 32 bits. -/
structure TakesLimit (lines : List (List Bytes)) (location location' : LocationBlock) : Prop where
  kept : lines = [] → location'.maxBodySize = location.maxBodySize
  given : ∀ limit, GivesLimit lines limit →
    location'.maxBodySize = toInt32 limit ∧ 0 ≤ limit ∧ limit ≤ uint32Max

/-- One line of the directive. -/
theorem apply_maxBodySize {args : List Bytes} {location location' : LocationBlock}
    (h : LocationDirective.clientMaxBodySize.apply args location = some location') :
    TakesLimit [args] location location' := by
  match args, h with
  | [w], h =>
    obtain ⟨size, hsize, rfl⟩ := Option.map_eq_some_iff.mp h
    refine ⟨(fun hnil => nomatch hnil), ?_⟩
    rintro limit ⟨w', hlast, hdressed⟩
    obtain rfl : w = w' := by simpa using hlast
    obtain ⟨rfl, hmin, hmax⟩ := (stoi_of_dressed hdressed).mp hsize
    exact ⟨rfl, hmin, hmax⟩

/-- **The lines of a location.**  Its limit is that of the last line that gives one, narrowed to 32 bits
with a sign. -/
theorem foldlM_maxBodySize : ∀ {settings : List Setting} {location location' : LocationBlock},
    settings.foldlM (fun location s => s.1.apply s.2 location) location = some location' →
      TakesLimit (LocationDirective.clientMaxBodySize.linesOf settings) location location'
  | [], location, location', h => by
    obtain rfl := Option.some.inj h
    refine ⟨fun _ => rfl, ?_⟩
    rintro limit ⟨w, hlast, -⟩
    cases hlast
  | (dir, args) :: settings, location, location', h => by
    rw [List.foldlM_cons] at h
    obtain ⟨middle, hfirst, hrest⟩ := Option.bind_eq_some_iff.mp h
    have ih := foldlM_maxBodySize hrest
    by_cases hdir : LocationDirective.clientMaxBodySize = dir
    · subst hdir
      have hline := apply_maxBodySize hfirst
      rw [LocationDirective.linesOf_cons_self]
      refine ⟨(fun hnil => nomatch hnil), ?_⟩
      cases hlines : LocationDirective.clientMaxBodySize.linesOf settings with
      | nil =>
        rw [ih.kept hlines]
        exact hline.given
      | cons line lines =>
        rintro limit ⟨w, hlast, hdressed⟩
        rw [List.getLast?_cons_cons, ← hlines] at hlast
        exact ih.given limit ⟨w, hlast, hdressed⟩
    · have hkept : middle.maxBodySize = location.maxBodySize :=
        (LocationDirective.sets_of_apply hfirst).others .clientMaxBodySize hdir
      rw [LocationDirective.linesOf_cons_of_ne hdir]
      exact ⟨fun hnil => (ih.kept hnil).trans hkept, ih.given⟩

theorem toInt32_of_upper {v : Int} (h₁ : 2 ^ 31 ≤ v) (h₂ : v ≤ uint32Max) : toInt32 v = v - 2 ^ 32 := by
  unfold uint32Max at h₂
  unfold toInt32
  rw [Int.bmod_def]
  split <;> omega

/-- **The limit after inheritance.**  The limit of the location in 32 bits, unless it is then `-1`; in this
case `fill` takes the limit of the server. -/
theorem finalLocation_maxBodySize {entries : List Entry} {core : ServerScope} {l : Bytes × List Setting}
    {limit serverLimit : Int}
    (hcore : (Entry.others entries).foldlM (fun scope e => Entry.apply e scope) {} = some core)
    (hl : (locationBlock l.1 l.2).isSome = true)
    (hlimit : GivesLimit (LocationDirective.clientMaxBodySize.linesOf l.2) limit)
    (hserver : ServerLimit (Entry.settings entries) serverLimit) :
    (finalLocation core.globalLocation l).maxBodySize =
        (if toInt32 limit = -1 then toInt32 serverLimit else toInt32 limit) ∧
      0 ≤ limit ∧ limit ≤ uint32Max ∧ 0 ≤ serverLimit := by
  obtain ⟨location, hlocation⟩ := Option.isSome_iff_exists.mp hl
  have hfinal : (finalLocation core.globalLocation l).maxBodySize =
      if location.maxBodySize = -1 then core.globalLocation.maxBodySize else location.maxBodySize := by
    rw [finalLocation, hlocation]
    rfl
  unfold locationBlock at hlocation
  split_ifs at hlocation with hpath
  obtain ⟨hown, hmin, hmax⟩ := (foldlM_maxBodySize hlocation).given limit hlimit
  have hglobal : core.globalLocation.maxBodySize = toInt32 serverLimit ∧ 0 ≤ serverLimit := by
    have htakes := foldlM_maxBodySize (globalLocation_of_others hcore)
    rcases hserver with hgiven | ⟨hnone, rfl⟩
    · obtain ⟨hvalue, hpos, -⟩ := htakes.given serverLimit hgiven
      exact ⟨hvalue, hpos⟩
    · exact ⟨(htakes.kept hnone).trans (by decide), by decide⟩
  rw [hfinal, hown, hglobal.1]
  exact ⟨rfl, hmin, hmax, hglobal.2⟩

/-! ## The limit is enforced -/

/-- The request announces a body of `n` bytes. -/
def Handler.Announces (h : Handler) (n : Int) : Prop :=
  ∃ str, h.context.headers.find? headerContentLength = some str ∧ Dressed 10 (cstr str) n

/-- `_checkHeaders` refuses the body for its size, with 413, before a byte of it is read. -/
def Handler.RefusesSize (h : Handler) : Prop :=
  (checkHeaders h).1 = .reqDone ∧
    (checkHeaders h).2.context.response.statusCode = statusPayloadTooLarge

/-- The header has the length that it writes. -/
theorem sToContentLength_of_dressed {str : Bytes} {n : Int} (h : Dressed 10 (cstr str) n) (hpos : 0 < n)
    (hmax : n ≤ int32Max) : sToContentLength str false = n := by
  unfold int32Max at hmax
  have hlong : toLong n = n := by
    unfold toLong
    omega
  have hstrtol : strtol (cstr str) (if false then 16 else 10) = (n, []) := by
    refine (strtol_of_dressed h).trans ?_
    rw [hlong]
  unfold sToContentLength
  rw [hstrtol]
  dsimp only
  rw [if_neg fun hor => hor.elim (fun hne => hne rfl) fun hlt => by omega,
    if_neg (by unfold int32Max; omega)]

/-- `_checkHeaders` refuses exactly what is over the limit of the location. -/
theorem refusesSize_iff {h : Handler} {n : Int} (hn : h.Announces n) (hpos : 0 < n)
    (hmax : n ≤ int32Max) : h.RefusesSize ↔ h.rule.maxBodySize < n := by
  obtain ⟨str, hfind, hdressed⟩ := hn
  have hlength := sToContentLength_of_dressed hdressed hpos hmax
  have hlimit : (h.setContentLength n).maxBodySize = h.rule.maxBodySize := rfl
  have hcontent : (h.setContentLength n).request.contentLength = n := rfl
  unfold Handler.RefusesSize Handler.checkHeaders
  rw [hfind]
  dsimp only
  rw [hlength, hlimit, hcontent, if_neg (by unfold contentLengthInvalid; omega)]
  by_cases hover : h.rule.maxBodySize < n
  · rw [if_pos (Or.inr hover)]
    exact iff_of_true ⟨rfl, rfl⟩ hover
  · rw [if_neg fun hor => hor.elim (fun heq => by unfold contentLengthTooLarge at heq; omega) hover,
      if_neg (by omega)]
    exact iff_of_false (fun h => nomatch h.1) hover

/-- **The enforced limit.**  A location is given the limit `v`, and the limit at server level is `g`.  A body
of `n` bytes is refused exactly when `n > v`, if and only if `v` fits in an `int32_t`, or is `2 ^ 32 - 1`, which
is replaced by `g`, and `g` allows the body as well. -/
theorem refused_iff {tokens rest : List ConfToken} {token : Nat} {b : Block ServerEntry.items}
    {conf conf' : ConfFile} {server : ServerBlock}
    (hdrop : tokens.drop token = b.init ++ b.closing :: rest)
    (haccepted : serverDirective tokens token conf = .ok (token + b.init.length, conf'))
    (hserver : conf'.blocks = conf.blocks ++ [server]) {i : Nat} {l : Bytes × List Setting}
    {location : LocationBlock} (hl : (Entry.locations b.texts)[i]? = some l)
    (hlocation : server.locations[i]? = some location) {v g n : Int}
    (hv : GivesLimit (LocationDirective.clientMaxBodySize.linesOf l.2) v)
    (hg : ServerLimit (Entry.settings b.texts) g) (hsmall : g < 2 ^ 31) {h : Handler}
    (hrule : h.rule = location) (hn : h.Announces n) (hpos : 0 < n) (hmax : n ≤ int32Max) :
    (h.RefusesSize ↔ v < n) ↔ v < 2 ^ 31 ∨ v = 2 ^ 32 - 1 ∧ n ≤ g := by
  have hblock := (serverDirective_iff hdrop).mp ⟨conf', haccepted, hserver⟩
  obtain ⟨core, hcore, hall, rfl⟩ := serverBlock_eq_some_iff.mp hblock
  obtain rfl : finalLocation core.globalLocation l = location := by
    have hfinal : ((Entry.locations b.texts).map (finalLocation core.globalLocation))[i]? =
        some location := hlocation
    rw [List.getElem?_map, hl] at hfinal
    exact Option.some.inj hfinal
  obtain ⟨hvalue, hvmin, hvmax, hgmin⟩ :=
    finalLocation_maxBodySize hcore (hall l (List.mem_of_getElem? hl)) hv hg
  have hg32 : toInt32 g = g := toInt32_of_range (by omega) (by unfold int32Max; omega)
  rw [refusesSize_iff hn hpos hmax, hrule, hvalue, hg32]
  unfold uint32Max at hvmax
  unfold int32Max at hmax
  by_cases hfits : v < 2 ^ 31
  · have hv32 : toInt32 v = v := toInt32_of_range (by omega) (by unfold int32Max; omega)
    rw [hv32, if_neg (by omega)]
    exact iff_of_true Iff.rfl (Or.inl hfits)
  · -- the stored limit is negative, and `-1` gives way to the limit of the server
    rw [toInt32_of_upper (by omega) (by unfold uint32Max; omega)]
    split_ifs with hunset
    · omega
    · omega

/-- A server block with one location, which has one setting, its body limit. -/
def limitBlock (limit : Bytes) (hword : (ConfToken.mk limit 2).isMetatoken = false) :
    Block ServerEntry.items where
  directive := ⟨bytes "server", 1⟩
  opening := ⟨[blockOpen], 1⟩
  body := [.location {
    directive := ⟨bytes "location", 2⟩
    target := ⟨bytes "/", 2⟩
    opening := ⟨[blockOpen], 2⟩
    lines := [{
      dir := .clientMaxBodySize
      directive := ⟨bytes "client_max_body_size", 2⟩
      args := [⟨limit, 2⟩]
      closing := ⟨[semicolon], 2⟩
      directive_str := rfl
      words := by simpa [Words] using hword
      closing_is := by decide }]
    closing := ⟨[blockClose], 2⟩
    directive_str := rfl
    target_word := by decide
    opening_is := by decide
    closing_is := by decide }]
  closing := ⟨[blockClose], 3⟩
  opening_is := by decide
  closing_is := by decide

/-- An upload of `n` bytes to the location of a server. -/
def uploadHandler (server : ServerBlock) (n : Bytes) : Handler where
  context := {
    server := .single 3 server fun _ => 0
    ruleBlock := server.locations.head?
    headers := OrderedMap.empty.insert headerContentLength n
    world := { fs := { table := fun _ => none } } }
  request := { kind := .post, path := {}, cgiPath := none }

theorem announces_uploadHandler (server : ServerBlock) {str : Bytes} {n : Nat}
    (h : IsNumeral 10 str n) : (uploadHandler server str).Announces n := by
  refine ⟨str, OrderedMap.find?_insert_self .., ?_⟩
  rw [h.cstr_eq]
  exact h.dressed

/-- The server that `limitBlock` describes. -/
def limitServer (limit : Bytes) (hword : (ConfToken.mk limit 2).isMetatoken = false) : ServerBlock :=
  (serverBlock (limitBlock limit hword).texts).getD {}

section Limits

variable {limit : Bytes} {hword : (ConfToken.mk limit 2).isMetatoken = false}

/-- The block is accepted where its limit is. -/
theorem exists_limited (haccepted : (serverBlock (limitBlock limit hword).texts).isSome = true) :
    ∃ conf', serverDirective ((limitBlock limit hword).init ++ [(limitBlock limit hword).closing]) 0 init =
        .ok (0 + (limitBlock limit hword).init.length, conf') ∧
      conf'.blocks = init.blocks ++ [limitServer limit hword] := by
  obtain ⟨server, hserver⟩ := Option.isSome_iff_exists.mp haccepted
  refine (@serverDirective_iff _ [] _ _ _ _ List.drop_zero).mpr ?_
  rw [limitServer, hserver, Option.getD_some]

end Limits

/-- A limit that fits, and a body over it. -/
theorem refused_iff_fits :
    ((uploadHandler (limitServer (bytes "100") (by decide)) (bytes "200")).RefusesSize ↔
        (100 : Int) < 200) ↔
      (100 : Int) < 2 ^ 31 ∨ (100 : Int) = 2 ^ 32 - 1 ∧ (200 : Int) ≤ LocationBlock.defaultMaxBodySize := by
  obtain ⟨conf', haccepted, hserver⟩ :=
    @exists_limited (bytes "100") (by decide) (by decide +kernel)
  have hlimit : IsNumeral 10 (bytes "100") 100 := ⟨by decide, by decide +kernel, by decide⟩
  have hsize : IsNumeral 10 (bytes "200") 200 := ⟨by decide, by decide +kernel, by decide⟩
  exact @refused_iff _ [] 0 _ _ _ _ List.drop_zero haccepted hserver 0
    (bytes "/", [(.clientMaxBodySize, [bytes "100"])]) _ rfl rfl 100 _ 200
    ⟨bytes "100", rfl, by rw [hlimit.cstr_eq]; exact hlimit.dressed⟩ (Or.inr ⟨rfl, rfl⟩) (by decide) _ rfl
    (announces_uploadHandler _ hsize) (by decide) (by decide)

/-- A limit of `2 ^ 31` refuses a body of one byte; a limit of `2 ^ 32 - 1` refuses what is over the limit of
the server. -/
theorem not_refused_iff :
    (∃ conf', serverDirective
        ((limitBlock (bytes "2147483648") (by decide)).init ++ [⟨[blockClose], 3⟩]) 0 init =
          .ok (9, conf') ∧
        conf'.blocks = [limitServer (bytes "2147483648") (by decide)] ∧
          ¬ ((uploadHandler (limitServer (bytes "2147483648") (by decide)) (bytes "1")).RefusesSize ↔
            (2147483648 : Int) < 1)) ∧
      ∃ conf', serverDirective
        ((limitBlock (bytes "4294967295") (by decide)).init ++ [⟨[blockClose], 3⟩]) 0 init =
          .ok (9, conf') ∧
        conf'.blocks = [limitServer (bytes "4294967295") (by decide)] ∧
          ¬ ((uploadHandler (limitServer (bytes "4294967295") (by decide)) (bytes "2000000")).RefusesSize ↔
            (4294967295 : Int) < 2000000) := by
  obtain ⟨conf₁, haccepted₁, hserver₁⟩ :=
    @exists_limited (bytes "2147483648") (by decide) (by decide +kernel)
  obtain ⟨conf₂, haccepted₂, hserver₂⟩ :=
    @exists_limited (bytes "4294967295") (by decide) (by decide +kernel)
  refine ⟨⟨conf₁, haccepted₁, hserver₁, fun hiff => ?_⟩, conf₂, haccepted₂, hserver₂, fun hiff => ?_⟩
  · exact absurd (hiff.mp ⟨by decide +kernel, by decide +kernel⟩) (by decide)
  · exact absurd (hiff.mp ⟨by decide +kernel, by decide +kernel⟩) (by decide)

/-! ## The port of a `listen` line -/

/-- `htons`: the two bytes the other way round. -/
def htons (port : Nat) : Nat := port % 256 * 256 + port / 256 % 256

/-- What is left of a port in 16 bits is all of it, for no other number than the port itself. -/
theorem htons_inj {m n : Nat} (hm : m < 2 ^ 16) (hn : n < 2 ^ 16) : htons m = htons n ↔ m = n := by
  unfold htons
  omega

/-- The forms of an argument that has a port part: a port, for any address, or an address and a port. -/
inductive ListenForm : Bytes → Bytes → Nat → Prop where
  | port {part : Bytes} (hcolon : colon ∉ part) (haddress : inetPton part = none) :
    ListenForm part part defaultHost.addr
  | addressPort {address part : Bytes} {addr : Nat} (hcolon : colon ∉ address)
      (haddress : inetPton address = some addr) : ListenForm (address ++ colon :: part) part addr

/-- What is stored for an argument with a port part. -/
theorem listenHost_of_form {str part : Bytes} {addr : Nat} (h : ListenForm str part addr) :
    listenHost str = (stoi 0 uint32Max part).map fun port => ⟨addr, port.toNat % 2 ^ 16⟩ := by
  cases h with
  | port hcolon haddress =>
    rw [listenHost, Search.findSub_singleton_eq_none hcolon]
    dsimp only
    rw [haddress]
  | @addressPort address part addr hcolon haddress =>
    rw [listenHost, Search.findSub_singleton_append hcolon]
    dsimp only
    have hdrop : (address ++ colon :: part).drop (address.length + 1) = part := by
      rw [← List.drop_drop, List.drop_left, List.drop_one, List.tail_cons]
    rw [List.take_left, haddress, hdrop]

/-- What is accepted has a port part, or is an address, for port 80. -/
theorem listenHost_cases {str : Bytes} {host : SockAddr} (h : listenHost str = some host) :
    (∃ part addr, ListenForm str part addr) ∨
      colon ∉ str ∧ inetPton str = some host.addr ∧ host.port = defaultHost.port := by
  unfold listenHost at h
  cases hsep : Search.findSub [58] str with
  | none =>
    rw [hsep] at h
    have hcolon : colon ∉ str := fun hmem => by
      rw [Search.findSub_eq_none_iff] at hsep
      obtain ⟨before, after, rfl⟩ := List.append_of_mem hmem
      exact hsep ⟨before, after, by simp⟩
    dsimp only at h
    cases haddress : inetPton str with
    | none => exact Or.inl ⟨str, _, .port hcolon haddress⟩
    | some addr =>
      rw [haddress] at h
      obtain rfl := Option.some.inj h
      exact Or.inr ⟨hcolon, rfl, rfl⟩
  | some sep =>
    rw [hsep] at h
    dsimp only at h
    cases haddress : inetPton (str.take sep) with
    | none =>
      rw [haddress] at h
      cases h
    | some addr =>
      obtain ⟨hlen, ⟨after, hafter⟩, hfirst⟩ := Search.findSub_eq_some_iff.mp hsep
      have hcolon : colon ∉ str.take sep := by
        intro hmem
        obtain ⟨j, hj, hget⟩ := List.getElem_of_mem hmem
        rw [List.length_take] at hj
        rw [List.getElem_take] at hget
        refine hfirst j (by omega) ⟨str.drop (j + 1), ?_⟩
        rw [List.drop_eq_getElem_cons (by omega : j < str.length), hget]
        rfl
      have hstr : str.take sep ++ colon :: after = str := by
        conv_rhs => rw [← List.take_append_drop sep str, ← hafter]
        rfl
      refine Or.inl ⟨after, addr, ?_⟩
      have hform := @ListenForm.addressPort _ after _ hcolon haddress
      rwa [hstr] at hform

/-- `strtol` reads the string to its end, and its value fits in 32 bits. -/
def ReadsUInt32 (str : Bytes) : Prop :=
  cstr str = [] ∨ ∃ v, Dressed 10 (cstr str) v ∧ 0 ≤ v ∧ v ≤ uint32Max

theorem readsUInt32_iff {str : Bytes} : ReadsUInt32 str ↔ ∃ v, stoi 0 uint32Max str = some v := by
  constructor
  · rintro (hnil | ⟨v, hdressed, hmin, hmax⟩)
    · exact ⟨0, stoi_eq_some_iff.mpr (by rw [hnil]; exact ⟨rfl, rfl, Int.le_refl 0, by decide⟩)⟩
    · exact ⟨v, (stoi_of_dressed hdressed).mpr ⟨rfl, hmin, hmax⟩⟩
  · rintro ⟨v, hv⟩
    refine (stoi_cases hv).imp And.left fun hdressed => ⟨v, hdressed, ?_⟩
    exact ((stoi_of_dressed hdressed).mp hv).2

/-- The port that was written is added to the server.  The two are compared as `htons` leaves them, which is
what the socket is bound to: on ports of 16 bits that is equality, by `htons_inj`. -/
def AddsWrittenPort (part : Bytes) (server server' : ServerBlock) : Prop :=
  ∃ host p, server'.hosts = server.hosts ++ [host] ∧ IsNumeral 10 part p ∧ p ≤ 65535 ∧
    htons host.port = htons p

/-- A numeral of 32 bits is accepted. -/
theorem stoi_of_isNumeral {part : Bytes} {p : Nat} (h : IsNumeral 10 part p) (hp : (p : Int) ≤ uint32Max) :
    stoi 0 uint32Max part = some (p : Int) := by
  have hdressed : Dressed 10 (cstr part) p := by
    rw [h.cstr_eq]
    exact h.dressed
  exact (stoi_of_dressed hdressed).mpr ⟨rfl, by omega, hp⟩

/-- What a `listen` line does. -/
theorem listenDirective_of_isLine {tokens rest : List ConfToken} {token : Nat}
    {directive value closing : ConfToken}
    (hline : IsLine semicolon tokens token directive [value] closing rest) (server : ServerBlock)
    {token' : Nat} {server' : ServerBlock} :
    listenDirective tokens token server = .ok (token', server') ↔
      token' = token + 2 ∧ ∃ host, listenHost value.str = some host ∧ server' = server.addHost host := by
  rw [listenDirective, (readsLine_oneArg takeHost tokens token server).of_isLine hline]
  show (lift (takeHost directive value server)).map _ = _ ↔ _
  unfold takeHost
  cases hhost : listenHost value.str with
  | none =>
    refine iff_of_false (fun h => nomatch h) ?_
    rintro ⟨-, host, hnone, -⟩
    cases hnone
  | some host =>
    constructor
    · intro h
      obtain ⟨rfl, rfl⟩ := Prod.mk.inj (Except.ok.inj h)
      exact ⟨rfl, host, rfl, rfl⟩
    · rintro ⟨rfl, _, heq, rfl⟩
      rw [Option.some.inj heq]
      rfl

/-- **The port that is listened on.**  Every accepted argument with a port part stores the port that was
written, if and only if that is a numeral up to 65535, or `strtol` does not read the part as a number of 32
bits. -/
theorem listens_iff {tokens rest : List ConfToken} {token : Nat} {directive value closing : ConfToken}
    (hline : IsLine semicolon tokens token directive [value] closing rest) {part : Bytes} {addr : Nat}
    (hform : ListenForm value.str part addr) (server : ServerBlock) :
    (∀ token' server', listenDirective tokens token server = .ok (token', server') →
        AddsWrittenPort part server server') ↔
      (∃ p ≤ 65535, IsNumeral 10 part p) ∨ ¬ ReadsUInt32 part := by
  have hhost := listenHost_of_form hform
  constructor
  · intro h
    by_cases hreads : ReadsUInt32 part
    · obtain ⟨v, hv⟩ := readsUInt32_iff.mp hreads
      rw [hv] at hhost
      obtain ⟨-, p, -, hnumeral, hp, -⟩ :=
        h _ _ ((listenDirective_of_isLine hline server).mpr ⟨rfl, _, hhost, rfl⟩)
      exact Or.inl ⟨p, hp, hnumeral⟩
    · exact Or.inr hreads
  · intro h token' server' haccepted
    obtain ⟨-, host, hsome, rfl⟩ := (listenDirective_of_isLine hline server).mp haccepted
    rw [hhost] at hsome
    obtain ⟨v, hv, rfl⟩ := Option.map_eq_some_iff.mp hsome
    rcases h with ⟨p, hp, hnumeral⟩ | hreads
    · have hvalue := stoi_of_isNumeral hnumeral (by unfold uint32Max; omega)
      obtain rfl := Option.some.inj (hv.symm.trans hvalue)
      refine ⟨_, p, rfl, hnumeral, hp, ?_⟩
      dsimp only
      rw [Int.toNat_natCast, Nat.mod_eq_of_lt (by omega)]
    · exact absurd (readsUInt32_iff.mpr ⟨v, hv⟩) hreads

/-- A `listen` line with one argument. -/
def listenTokens (arg : Bytes) : List ConfToken := [⟨bytes "listen", 1⟩, ⟨arg, 1⟩, ⟨[semicolon], 1⟩]

theorem isLine_listenTokens {arg : Bytes} (h : (ConfToken.mk arg 1).isMetatoken = false) :
    IsLine semicolon (listenTokens arg) 0 ⟨bytes "listen", 1⟩ [⟨arg, 1⟩] ⟨[semicolon], 1⟩ [] :=
  ⟨rfl, List.forall_mem_singleton.mpr h, by decide⟩

/-- An address and a port. -/
theorem listens_iff_address :
    (∀ token' server', listenDirective (listenTokens (bytes "127.0.0.1:8080")) 0 {} =
        .ok (token', server') → AddsWrittenPort (bytes "8080") {} server') ↔
      (∃ p ≤ 65535, IsNumeral 10 (bytes "8080") p) ∨ ¬ ReadsUInt32 (bytes "8080") :=
  @listens_iff _ [] 0 _ _ _ (isLine_listenTokens (by decide)) (bytes "8080") 2130706433
    (@ListenForm.addressPort (bytes "127.0.0.1") _ _ (by decide) (by decide)) {}

/-- The ports 65616 and `+80` are port 80, and no port is port 0. -/
theorem not_addsWrittenPort :
    listenDirective (listenTokens (bytes "65616")) 0 {} = .ok (2, { hosts := [⟨0, 80⟩] }) ∧
      ¬ AddsWrittenPort (bytes "65616") {} { hosts := [⟨0, 80⟩] } ∧
      listenDirective (listenTokens (bytes "+80")) 0 {} = .ok (2, { hosts := [⟨0, 80⟩] }) ∧
      ¬ AddsWrittenPort (bytes "+80") {} { hosts := [⟨0, 80⟩] } ∧
      listenDirective (listenTokens (bytes "127.0.0.1:")) 0 {} =
        .ok (2, { hosts := [⟨2130706433, 0⟩] }) ∧
      ¬ AddsWrittenPort [] {} { hosts := [⟨2130706433, 0⟩] } := by
  have haccepted : ∀ {arg : Bytes} {host : SockAddr}, (ConfToken.mk arg 1).isMetatoken = false →
      listenHost arg = some host →
        listenDirective (listenTokens arg) 0 {} = .ok (2, { hosts := [host] }) :=
    fun hword hhost =>
      (listenDirective_of_isLine (isLine_listenTokens hword) {}).mpr ⟨rfl, _, hhost, rfl⟩
  refine ⟨haccepted (by decide) (by decide), ?_, haccepted (by decide) (by decide), ?_,
    haccepted (by decide) (by decide), ?_⟩
  · rintro ⟨-, p, -, hnumeral, hp, -⟩
    have hvalue : digitsValue 10 (bytes "65616") = 65616 := by decide
    have := hnumeral.value
    omega
  · rintro ⟨-, p, -, hnumeral, -⟩
    exact absurd (hnumeral.digits 43 (by decide)) (by decide)
  · rintro ⟨-, p, -, hnumeral, -⟩
    exact hnumeral.ne_nil rfl

end Webserv
