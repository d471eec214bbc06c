import Mathlib.Data.List.Pairwise
import Mathlib.Data.List.TakeDrop
import Mathlib.Data.List.TakeWhile
import RaftTimeDB.Lib.Codec

/-!
# Request paths and route tables

The part of HTTP that decides which handler a request goes to.

* `segments` — a path is cut at its slashes.
* `Seg`, `match?` — route patterns of literal segments and parameters; a parameter takes any one
  segment.
* `find` — the lookup of a route table by a tree of segments: a literal is tried before a parameter,
  and the search goes back when a branch fails.
* `percentDecode` — what a parameter's text stands for.
* `parseUrl` — scheme, authority and path of an absolute URL; query and fragment are left out.

Principal results: `find_sound`, `find_complete` and `find_unique` — the lookup finds an entry that
matches, finds one if there is one, and so finds the only one there is; `only_of_pairwise` — where
the patterns of a table do not overlap, an entry that matches is the only one; `segments_join` and
`parseUrl_join` — what is put together is taken apart again.
-/

set_option autoImplicit false

namespace Routing

/-! ## Paths -/

/-- The segments of a path; a path starts with a slash. -/
def segments : List Char → Option (List (List Char))
  | '/' :: rest => some (rest.splitOn '/')
  | _ => none

/-- The path with the given segments. -/
def joinPath (segs : List (List Char)) : List Char := '/' :: ['/'].intercalate segs

theorem segments_join {segs : List (List Char)} (hne : segs ≠ []) (h : ∀ seg ∈ segs, '/' ∉ seg) :
    segments (joinPath segs) = some segs := by
  rw [joinPath, segments, List.splitOn_intercalate '/' h hne]

/-! ## Patterns -/

inductive Seg where
  | lit (text : String)
  | param
  deriving DecidableEq, Repr

abbrev Pattern := List Seg

/-- The texts of the parameters, if the pattern matches. -/
def match? : Pattern → List (List Char) → Option (List (List Char))
  | [], [] => some []
  | .lit text :: pattern, seg :: path => if text.toList = seg then match? pattern path else none
  | .param :: pattern, seg :: path => (match? pattern path).map (seg :: ·)
  | _, _ => none

theorem match?_nil {path args : List (List Char)} :
    match? [] path = some args ↔ path = [] ∧ args = [] := by
  cases path with
  | nil => simp [match?, eq_comm]
  | cons seg path => simp [match?]

theorem match?_lit {text : String} {pattern : Pattern} {path args : List (List Char)} :
    match? (.lit text :: pattern) path = some args ↔
      ∃ rest, path = text.toList :: rest ∧ match? pattern rest = some args := by
  cases path with
  | nil => simp [match?]
  | cons seg path =>
    by_cases htext : text.toList = seg
    · simp [match?, htext]
    · simp [match?, htext, Ne.symm htext]

theorem match?_param {pattern : Pattern} {path args : List (List Char)} :
    match? (.param :: pattern) path = some args ↔
      ∃ seg rest restArgs, path = seg :: rest ∧ args = seg :: restArgs ∧
        match? pattern rest = some restArgs := by
  cases path with
  | nil => simp [match?]
  | cons seg path => simp [match?, eq_comm, and_comm]

/-- The pattern starts with a literal that is not empty. -/
def startsNamed : Pattern → Bool
  | .lit text :: _ => text.toList != []
  | _ => false

theorem match?_of_startsNamed {pattern : Pattern} (h : startsNamed pattern = true)
    (path : List (List Char)) : match? pattern ([] :: path) = none := by
  cases pattern with
  | nil => rfl
  | cons first pattern =>
    cases first with
    | lit text => exact if_neg (bne_iff_ne.mp h)
    | param => cases h

variable {α : Type}

/-- What is left of an entry whose pattern starts with this literal. -/
def afterLit (seg : List Char) : Pattern × α → Option (Pattern × α)
  | (.lit text :: pattern, a) => if text.toList = seg then some (pattern, a) else none
  | _ => none

/-- What is left of an entry whose pattern starts with a parameter. -/
def afterParam : Pattern × α → Option (Pattern × α)
  | (.param :: pattern, a) => some (pattern, a)
  | _ => none

/-- The entry for a path with the texts of its parameters. -/
def find : List (Pattern × α) → List (List Char) → Option (List (List Char) × α)
  | table, [] => (table.find? fun e => e.1.isEmpty).map fun e => ([], e.2)
  | table, seg :: path =>
      match find (table.filterMap (afterLit seg)) path with
      | some found => some found
      | none =>
          (find (table.filterMap afterParam) path).map fun found => (seg :: found.1, found.2)

theorem mem_filterMap_afterLit {table : List (Pattern × α)} {seg : List Char} {pattern : Pattern}
    {a : α} :
    (pattern, a) ∈ table.filterMap (afterLit seg) ↔
      ∃ text, text.toList = seg ∧ (.lit text :: pattern, a) ∈ table := by
  rw [List.mem_filterMap]
  constructor
  · rintro ⟨⟨p, b⟩, hmem, hafter⟩
    unfold afterLit at hafter
    split at hafter
    · rename_i text p' b' heq
      split at hafter
      · rename_i htext
        cases hafter
        cases heq
        exact ⟨text, htext, hmem⟩
      · cases hafter
    · cases hafter
  · rintro ⟨text, htext, hmem⟩
    exact ⟨_, hmem, if_pos htext⟩

theorem mem_filterMap_afterParam {table : List (Pattern × α)} {pattern : Pattern} {a : α} :
    (pattern, a) ∈ table.filterMap afterParam ↔ (.param :: pattern, a) ∈ table := by
  rw [List.mem_filterMap]
  constructor
  · rintro ⟨⟨p, b⟩, hmem, hafter⟩
    unfold afterParam at hafter
    split at hafter
    · rename_i p' b' heq
      cases hafter
      cases heq
      exact hmem
    · cases hafter
  · intro hmem
    exact ⟨_, hmem, rfl⟩

/-- **Soundness**: what is found is in the table and matches. -/
theorem find_sound {table : List (Pattern × α)} {path args : List (List Char)} {a : α}
    (h : find table path = some (args, a)) :
    ∃ pattern, (pattern, a) ∈ table ∧ match? pattern path = some args := by
  induction path generalizing table args with
  | nil =>
    obtain ⟨⟨pattern, b⟩, hfind, heq⟩ := Option.map_eq_some_iff.mp h
    have hempty : pattern = [] := by simpa using List.find?_some hfind
    subst hempty
    cases heq
    exact ⟨[], List.mem_of_find?_eq_some hfind, rfl⟩
  | cons seg path ih =>
    unfold find at h
    split at h
    · rename_i found hfound
      cases h
      obtain ⟨pattern, hmem, hmatch⟩ := ih hfound
      obtain ⟨text, htext, hentry⟩ := mem_filterMap_afterLit.mp hmem
      exact ⟨_, hentry, match?_lit.mpr ⟨path, by rw [htext], hmatch⟩⟩
    · obtain ⟨⟨args', b⟩, hfound, heq⟩ := Option.map_eq_some_iff.mp h
      cases heq
      obtain ⟨pattern, hmem, hmatch⟩ := ih hfound
      exact ⟨_, mem_filterMap_afterParam.mp hmem, match?_param.mpr ⟨seg, path, args', rfl, rfl, hmatch⟩⟩

/-- **Completeness**: something is found if some entry matches. -/
theorem find_complete {table : List (Pattern × α)} {path args : List (List Char)}
    {pattern : Pattern} {a : α}
    (hmem : (pattern, a) ∈ table) (hmatch : match? pattern path = some args) :
    (find table path).isSome := by
  induction path generalizing table pattern args with
  | nil =>
    cases pattern with
    | nil =>
      rw [find, Option.isSome_map, List.find?_isSome]
      exact ⟨_, hmem, rfl⟩
    | cons seg pattern => cases seg <;> cases hmatch
  | cons seg path ih =>
    unfold find
    split
    · rfl
    · rename_i hnone
      cases pattern with
      | nil => cases hmatch
      | cons first pattern =>
        cases first with
        | lit text =>
          obtain ⟨rest, hpath, hrest⟩ := match?_lit.mp hmatch
          cases hpath
          have hsome := ih (mem_filterMap_afterLit.mpr ⟨text, rfl, hmem⟩) hrest
          rw [hnone] at hsome
          cases hsome
        | param =>
          obtain ⟨_, rest, args', hpath, -, hrest⟩ := match?_param.mp hmatch
          cases hpath
          rw [Option.isSome_map]
          exact ih (mem_filterMap_afterParam.mpr hmem) hrest

/-- **The only match is found.** -/
theorem find_unique {table : List (Pattern × α)} {path args : List (List Char)} {pattern : Pattern}
    {a : α} (hmem : (pattern, a) ∈ table) (hmatch : match? pattern path = some args)
    (honly : ∀ entry ∈ table, (match? entry.1 path).isSome → entry = (pattern, a)) :
    find table path = some (args, a) := by
  obtain ⟨⟨args', b⟩, hfind⟩ := Option.isSome_iff_exists.mp (find_complete hmem hmatch)
  obtain ⟨pattern', hmem', hmatch'⟩ := find_sound hfind
  have heq := honly _ hmem' (by rw [hmatch']; rfl)
  rw [Prod.mk.injEq] at heq
  obtain ⟨rfl, rfl⟩ := heq
  rw [hmatch, Option.some.injEq] at hmatch'
  rw [hfind, hmatch']

/-- Some path could match both patterns. -/
def compatible : Pattern → Pattern → Bool
  | [], [] => true
  | .lit text :: p, .lit text' :: q => text = text' && compatible p q
  | .param :: p, _ :: q | _ :: p, .param :: q => compatible p q
  | _, _ => false

theorem compatible_of_match? {p q : Pattern} {path : List (List Char)} (hp : (match? p path).isSome)
    (hq : (match? q path).isSome) : compatible p q = true := by
  induction path generalizing p q with
  | nil =>
    cases p with
    | nil =>
      cases q with
      | nil => rfl
      | cons seg q => cases seg <;> cases hq
    | cons seg p => cases seg <;> cases hp
  | cons seg path ih =>
    have hrest : ∀ {first : Seg} {p : Pattern}, (match? (first :: p) (seg :: path)).isSome →
        (match? p path).isSome ∧ ∀ text, first = .lit text → text.toList = seg := by
      intro first p h
      obtain ⟨args, hargs⟩ := Option.isSome_iff_exists.mp h
      cases first with
      | lit text =>
        obtain ⟨rest, hpath, hrest⟩ := match?_lit.mp hargs
        cases hpath
        exact ⟨by rw [hrest]; rfl, fun text' heq => by cases heq; rfl⟩
      | param =>
        obtain ⟨_, rest, args', hpath, -, hrest⟩ := match?_param.mp hargs
        cases hpath
        exact ⟨by rw [hrest]; rfl, fun text heq => nomatch heq⟩
    cases p with
    | nil => cases hp
    | cons first p =>
      cases q with
      | nil => cases hq
      | cons first' q =>
        have hboth := ih (hrest hp).1 (hrest hq).1
        cases first with
        | param => exact hboth
        | lit text =>
          cases first' with
          | param => exact hboth
          | lit text' =>
            have htexts := ((hrest hp).2 text rfl).trans ((hrest hq).2 text' rfl).symm
            simp [compatible, String.toList_inj.mp htexts, hboth]

theorem compatible_comm (p q : Pattern) : compatible p q = compatible q p := by
  induction p generalizing q with
  | nil =>
    cases q with
    | nil => rfl
    | cons first q => cases first <;> rfl
  | cons first p ih =>
    cases q with
    | nil => cases first <;> rfl
    | cons first' q =>
      cases first with
      | param => cases first' <;> exact ih q
      | lit text =>
        cases first' with
        | param => exact ih q
        | lit text' => simp [compatible, ih q, eq_comm]

/-- **Tables without overlap**: an entry that matches is the only one. -/
theorem only_of_pairwise {table : List (Pattern × α)} {path : List (List Char)} {e : Pattern × α}
    (htable : table.Pairwise fun e e' => compatible e.1 e'.1 = false) (hmem : e ∈ table)
    (hmatch : (match? e.1 path).isSome) :
    ∀ e' ∈ table, (match? e'.1 path).isSome → e' = e := by
  intro e' hmem' hmatch'
  by_contra hne
  have hsymm : Std.Symm fun e e' : Pattern × α => compatible e.1 e'.1 = false :=
    ⟨fun e e' h => (compatible_comm e'.1 e.1).trans h⟩
  have hno := htable.forall hmem' hmem hne
  rw [compatible_of_match? hmatch' hmatch] at hno
  cases hno

/-! ## Percent decoding -/

def hexValue? (c : Char) : Option Nat :=
  if c.isDigit then some (c.toNat - 48)
  else if 'a' ≤ c ∧ c ≤ 'f' then some (c.toNat - 87)
  else if 'A' ≤ c ∧ c ≤ 'F' then some (c.toNat - 55)
  else none

/-- The bytes a text stands for; a percent sign without two hexadecimal digits stands for itself. -/
def percentBytes : List Char → List UInt8
  | '%' :: a :: b :: rest =>
      match hexValue? a, hexValue? b with
      | some x, some y => UInt8.ofNat (16 * x + y) :: percentBytes rest
      | _, _ => String.utf8EncodeChar '%' ++ percentBytes (a :: b :: rest)
  | c :: rest => String.utf8EncodeChar c ++ percentBytes rest
  | [] => []

/-- The text a percent-encoded text stands for, if it is UTF-8. -/
def percentDecode (text : List Char) : Option (List Char) := Codec.ofUtf8? (percentBytes text)

theorem percentBytes_plain {text : List Char} (h : '%' ∉ text) :
    percentBytes text = text.flatMap String.utf8EncodeChar := by
  induction text with
  | nil => rfl
  | cons c rest ih =>
    rw [List.mem_cons, not_or] at h
    rw [percentBytes, ih h.2, List.flatMap_cons]
    rintro a b rest' rfl
    exact absurd rfl h.1

/-- A text without percent signs stands for itself. -/
theorem percentDecode_plain {text : List Char} (h : '%' ∉ text) : percentDecode text = some text := by
  have hutf8 : text.flatMap String.utf8EncodeChar = Codec.toUtf8 text := by
    simp [Codec.toUtf8, List.utf8Encode]
  rw [percentDecode, percentBytes_plain h, hutf8, Codec.ofUtf8?_toUtf8]

/-! ## URLs -/

structure Url where
  scheme : List Char
  authority : List Char
  path : List Char
  deriving DecidableEq, Repr

/-- The text before the first colon, if there is one, in lower case; blanks and control characters
do not count. -/
def schemeOf (text : List Char) : Option (List Char) :=
  let text := text.filter fun c => ' ' < c
  if ':' ∈ text then some ((text.takeWhile (· != ':')).map Char.toLower) else none

/-- What ends an authority. -/
def endsAuthority (c : Char) : Bool := c = '/' || c = '\\' || c = '?' || c = '#'

def isAuthorityChar (c : Char) : Bool := ' ' < c && !endsAuthority c

/-- An authority that is read as it is written. -/
def PlainAuthority (authority : List Char) : Prop :=
  authority ≠ [] ∧ authority.all isAuthorityChar = true

instance (authority : List Char) : Decidable (PlainAuthority authority) :=
  inferInstanceAs (Decidable (_ ∧ _))

/-- A character of a scheme, in lower case. -/
def isSchemeChar (c : Char) : Bool := ' ' < c && c != ':' && c.toLower == c

/-- Characters of a segment that no reader of URLs changes. -/
def isPlainSegmentChar (c : Char) : Bool := c.isAlphanum || c = '-'

def isPlainPathChar (c : Char) : Bool := c = '/' || isPlainSegmentChar c

/-- A path of plain segments is plain. -/
theorem isPlainPathChar_joinPath {segs : List (List Char)}
    (h : ∀ seg ∈ segs, seg.all isPlainSegmentChar = true) :
    (['/'].intercalate segs).all isPlainPathChar = true := by
  have hplain : ∀ {seg : List Char}, seg.all isPlainSegmentChar = true →
      seg.all isPlainPathChar = true := fun hseg => by
    rw [List.all_eq_true] at hseg ⊢
    exact fun c hc => by rw [isPlainPathChar, hseg c hc, Bool.or_true]
  induction segs with
  | nil => rfl
  | cons seg segs ih =>
    have hrest := ih fun seg' hmem => h seg' (List.mem_cons_of_mem _ hmem)
    have hfirst := hplain (h seg List.mem_cons_self)
    cases segs with
    | nil => simpa using hfirst
    | cons seg' segs =>
      rw [List.intercalate_cons_cons, List.all_append, List.all_append, hfirst, hrest]
      rfl

/-- A plain segment has no slash. -/
theorem slash_notMem_of_plain {seg : List Char} (h : seg.all isPlainSegmentChar = true) :
    '/' ∉ seg := by
  intro hslash
  cases List.all_eq_true.mp h '/' hslash

/-- A plain path has no colon. -/
theorem colon_notMem_of_plain {path : List Char} (h : path.all isPlainPathChar = true) :
    ':' ∉ path := by
  intro hcolon
  cases List.all_eq_true.mp h ':' hcolon

/-- An absolute URL; its path ends where the query or the fragment begins, and an empty path is a
slash. -/
def parseUrl (text : List Char) : Option Url :=
  let text := text.filter fun c => ' ' < c
  match Codec.strip "://".toList (text.dropWhile (· != ':')) with
  | some rest =>
      let path := (rest.dropWhile fun c => !endsAuthority c).takeWhile fun c => c != '?' && c != '#'
      some ⟨(text.takeWhile (· != ':')).map Char.toLower, rest.takeWhile fun c => !endsAuthority c,
        if path = [] then ['/'] else path⟩
  | none => none

theorem blank_lt_of_isPlainPathChar {c : Char} (h : isPlainPathChar c = true) : ' ' < c := by
  have hnat : ∀ {a b : UInt32}, a ≤ b → a.toNat ≤ b.toNat := fun h => h
  have hlow : 45 ≤ c.toNat := by
    unfold isPlainPathChar isPlainSegmentChar Char.isAlphanum Char.isAlpha Char.isUpper Char.isLower
      Char.isDigit at h
    simp only [Bool.or_eq_true, Bool.and_eq_true, decide_eq_true_eq] at h
    rcases h with rfl | ((⟨h, -⟩ | ⟨h, -⟩) | ⟨h, -⟩) | rfl
    · decide
    · exact Nat.le_trans (by decide) (hnat h)
    · exact Nat.le_trans (by decide) (hnat h)
    · exact Nat.le_trans (by decide) (hnat h)
    · decide
  exact Nat.lt_of_lt_of_le (by decide) hlow

theorem path_stays_of_isPlainPathChar {c : Char} (h : isPlainPathChar c = true) :
    (c != '?' && c != '#') = true := by
  rw [Bool.and_eq_true, bne_iff_ne, bne_iff_ne]
  constructor
  · rintro rfl
    cases h
  · rintro rfl
    cases h

/-- **A URL put together from plain parts** is taken apart again. -/
theorem parseUrl_join {scheme authority path : List Char}
    (hscheme : scheme.all isSchemeChar = true) (hauthority : PlainAuthority authority)
    (hpath : path.all isPlainPathChar = true) :
    parseUrl (scheme ++ "://".toList ++ authority ++ '/' :: path) =
      some ⟨scheme, authority, '/' :: path⟩ := by
  have hcolon : "://".toList = [':', '/', '/'] := by decide
  have hscheme : ∀ c ∈ scheme, (' ' < c ∧ (c != ':') = true) ∧ c.toLower = c := by
    simpa [isSchemeChar] using hscheme
  have hauthority : ∀ c ∈ authority, ' ' < c ∧ (!endsAuthority c) = true := by
    simpa [isAuthorityChar] using hauthority.2
  have hpath := List.all_eq_true.mp hpath
  have hs : ∀ c ∈ scheme, (c != ':') = true := fun c hc => (hscheme c hc).1.2
  have ha : ∀ c ∈ authority, (!endsAuthority c) = true := fun c hc => (hauthority c hc).2
  have hp : ∀ c ∈ '/' :: path, (c != '?' && c != '#') = true := by
    intro c hc
    rcases List.mem_cons.mp hc with rfl | hc
    · decide
    · exact path_stays_of_isPlainPathChar (hpath c hc)
  have hfilter : (scheme ++ "://".toList ++ authority ++ '/' :: path).filter (fun c => ' ' < c) =
      scheme ++ ("://".toList ++ (authority ++ '/' :: path)) := by
    have hall : ∀ c ∈ scheme ++ "://".toList ++ authority ++ '/' :: path, decide (' ' < c) = true := by
      intro c hc
      rw [hcolon] at hc
      simp only [List.mem_append, List.mem_cons, List.not_mem_nil, or_false] at hc
      rw [decide_eq_true_eq]
      rcases hc with ((hc | rfl | rfl | rfl) | hc) | rfl | hc
      · exact (hscheme c hc).1.1
      · decide
      · decide
      · decide
      · exact (hauthority c hc).1
      · decide
      · exact blank_lt_of_isPlainPathChar (hpath c hc)
    rw [List.filter_eq_self.mpr hall]
    simp
  have hdrop : (scheme ++ ("://".toList ++ (authority ++ '/' :: path))).dropWhile (· != ':') =
      "://".toList ++ (authority ++ '/' :: path) := by
    rw [List.dropWhile_append_of_pos hs, hcolon]
    rfl
  have htake : (scheme ++ ("://".toList ++ (authority ++ '/' :: path))).takeWhile (· != ':') =
      scheme := by
    rw [List.takeWhile_append_of_pos hs, hcolon]
    simp
  have hlower : scheme.map Char.toLower = scheme :=
    (List.map_congr_left fun c hc => (hscheme c hc).2).trans (List.map_id scheme)
  have hslash : (!endsAuthority '/') = false := by decide
  have hkept : ('/' :: path).takeWhile (fun c => c != '?' && c != '#') = '/' :: path :=
    List.takeWhile_eq_self_iff.mpr hp
  simp only [parseUrl, hfilter, hdrop, htake, hlower, Codec.strip_append,
    List.takeWhile_append_of_pos ha, List.dropWhile_append_of_pos ha,
    List.takeWhile_cons_of_neg (p := fun c => !endsAuthority c) (Bool.eq_false_iff.mp hslash),
    List.dropWhile_cons_of_neg (p := fun c => !endsAuthority c) (Bool.eq_false_iff.mp hslash), hkept,
    List.append_nil, if_neg (List.cons_ne_nil '/' path)]

/-- An absolute URL starts with its scheme. -/
theorem parseUrl_scheme {text : List Char} {u : Url} (h : parseUrl text = some u) :
    schemeOf text = some u.scheme := by
  simp only [parseUrl] at h
  split at h
  · rename_i rest hstrip
    cases h
    have hmem : ':' ∈ text.filter fun c => ' ' < c := by
      by_contra hno
      have hall : ∀ c ∈ text.filter fun c => ' ' < c, (c != ':') = true := by
        intro c hc
        rw [bne_iff_ne]
        rintro rfl
        exact hno hc
      rw [List.dropWhile_eq_nil_iff.mpr hall] at hstrip
      cases hstrip
    rw [schemeOf, if_pos hmem]
  · cases h

/-- What is added to a text does not change its scheme, if no colon is added. -/
theorem schemeOf_append (text : List Char) {rest : List Char} (h : ':' ∉ rest) :
    schemeOf (text ++ rest) = schemeOf text := by
  have hrest : ':' ∉ rest.filter fun c => ' ' < c := fun hmem => h (List.mem_of_mem_filter hmem)
  simp only [schemeOf, List.filter_append, List.mem_append, hrest, or_false]
  split
  · rename_i hmem
    -- the part before the colon is not all of the text
    have hshort : ((text.filter fun c => ' ' < c).takeWhile (· != ':')).length ≠
        (text.filter fun c => ' ' < c).length := by
      intro hlength
      have hall := List.takeWhile_eq_self_iff.mp
        ((List.takeWhile_prefix _).eq_of_length hlength) _ hmem
      cases hall
    rw [List.takeWhile_append, if_neg hshort]
  · rfl

end Routing
