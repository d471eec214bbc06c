import Mathlib.Data.Finset.Sort
import Mathlib.Data.Finmap
import Mathlib.Data.List.TakeDrop
import Mathlib.Tactic.IntervalCases

/-!
# JSON texts that read back

A `Codec` writes values as compact JSON text and reads them from the front of a text.  Its law says
that a written value, followed by anything that could follow a value in a larger text (`Follows`), is
read back with just the rest left over.  Codecs compose: a format for a record is put together from
the formats of its fields, and its law comes with it.

* `nat`, `bool`, `str` — numbers, booleans, strings with the standard escapes.
* `wrap`, `pair`, `seq`, `orNull`, `alt` — fixed text around a value, two values, sequences, nullable
  values, alternatives.
* `map` — a codec of another type of the same values.
* `toVec`, `fromSlice` — whole texts as bytes.

Principal result: `fromSlice_toVec`, the round trip.
-/

set_option autoImplicit false

/-- What may follow a value: the end of the text, or a character that is not a digit. -/
def Follows (rest : List Char) : Prop := ∀ c, rest.head? = some c → c.isDigit = false

theorem Follows.nil : Follows [] := fun c h => by cases h

theorem Follows.cons {c : Char} (h : c.isDigit = false) (rest : List Char) : Follows (c :: rest) := by
  intro c' hc
  cases hc
  exact h

theorem Follows.append {s rest : List Char} (hs : Follows s) (hrest : Follows rest) :
    Follows (s ++ rest) := by
  cases s with
  | nil => exact hrest
  | cons c s => exact Follows.cons (hs c rfl) _

/-- A way to write and read values of a type. -/
structure Codec (α : Type) where
  enc : α → List Char
  dec : List Char → Option (α × List Char)
  law : ∀ a rest, Follows rest → dec (enc a ++ rest) = some (a, rest)

namespace Codec

variable {α β : Type}

/-- The rest of a text after a fixed beginning. -/
def strip : List Char → List Char → Option (List Char)
  | [], s => some s
  | _ :: _, [] => none
  | p :: ps, c :: cs => if p = c then strip ps cs else none

@[simp] theorem strip_append (p rest : List Char) : strip p (p ++ rest) = some rest := by
  induction p with
  | nil => rfl
  | cons c p ih => simp [strip, ih]

/-! ## Numbers and booleans -/

theorem takeWhile_digits {ds rest : List Char} (hds : ∀ c ∈ ds, c.isDigit = true)
    (hrest : Follows rest) :
    (ds ++ rest).takeWhile Char.isDigit = ds ∧ (ds ++ rest).dropWhile Char.isDigit = rest := by
  have hnone : rest.takeWhile Char.isDigit = [] ∧ rest.dropWhile Char.isDigit = rest := by
    cases rest with
    | nil => exact ⟨rfl, rfl⟩
    | cons c rest => simp [hrest c rfl]
  rw [List.takeWhile_append_of_pos hds, List.dropWhile_append_of_pos hds, hnone.1, hnone.2]
  exact ⟨List.append_nil ds, rfl⟩

/-- Decimal numbers. -/
def nat : Codec Nat where
  enc n := Nat.toDigits 10 n
  dec s :=
    match s.takeWhile Char.isDigit with
    | [] => none
    | ds => some (Nat.ofDigitChars 10 ds 0, s.dropWhile Char.isDigit)
  law n rest hrest := by
    have hdigits : ∀ c ∈ Nat.toDigits 10 n, c.isDigit = true := fun c hc =>
      Nat.isDigit_of_mem_toDigits (by decide) (by decide) hc
    obtain ⟨htake, hdrop⟩ := takeWhile_digits hdigits hrest
    rw [htake, hdrop]
    split
    · rename_i hnil
      exact absurd hnil Nat.toDigits_ne_nil
    · rw [Nat.ofDigitChars_toDigits (by decide) (by decide)]

/-- The digits determine the number. -/
theorem toDigits_injective {n k : Nat} (h : Nat.toDigits 10 n = Nat.toDigits 10 k) : n = k := by
  have hread := congrArg (Nat.ofDigitChars 10 · 0) h
  simpa using hread

/-! ## Composition -/

/-- The same texts for another type of the same values. -/
def map (c : Codec α) (f : α → β) (g : β → α) (h : ∀ b, f (g b) = b) : Codec β where
  enc b := c.enc (g b)
  dec s := (c.dec s).map fun r => (f r.1, r.2)
  law b rest hrest := by
    rw [c.law _ rest hrest, Option.map_some, h]

/-- A value between fixed texts. -/
def wrap (before : String) (c : Codec α) (after : String) (hafter : Follows after.toList) :
    Codec α where
  enc a := before.toList ++ c.enc a ++ after.toList
  dec s :=
    (strip before.toList s).bind fun s =>
      (c.dec s).bind fun r => (strip after.toList r.2).map fun s => (r.1, s)
  law a rest hrest := by
    simp only [List.append_assoc, strip_append, Option.bind_some,
      c.law a _ (hafter.append hrest), Option.map_some]

/-- Two values with a fixed text between them. -/
def pair (c : Codec α) (between : String) (d : Codec β) (hbetween : Follows between.toList)
    (hne : between.toList ≠ []) : Codec (α × β) where
  enc p := c.enc p.1 ++ between.toList ++ d.enc p.2
  dec s :=
    (c.dec s).bind fun r =>
      (strip between.toList r.2).bind fun s => (d.dec s).map fun r' => ((r.1, r'.1), r'.2)
  law p rest hrest := by
    have hfollow : Follows (between.toList ++ (d.enc p.2 ++ rest)) := by
      cases h : between.toList with
      | nil => exact absurd h hne
      | cons ch s => exact Follows.cons (hbetween ch (by rw [h]; rfl)) _
    simp only [List.append_assoc, c.law p.1 _ hfollow, Option.bind_some, strip_append,
      d.law p.2 rest hrest, Option.map_some]

/-- A value of one of two kinds whose texts cannot be confused. -/
def alt (c : Codec α) (d : Codec β) (h : ∀ b rest, c.dec (d.enc b ++ rest) = none) :
    Codec (α ⊕ β) where
  enc
    | .inl a => c.enc a
    | .inr b => d.enc b
  dec s :=
    match c.dec s with
    | some r => some (.inl r.1, r.2)
    | none => (d.dec s).map fun r => (.inr r.1, r.2)
  law x rest hrest := by
    cases x with
    | inl a => simp only [c.law a rest hrest]
    | inr b => simp only [h b rest, d.law b rest hrest, Option.map_some]

/-- A fixed text. -/
def text (s : String) : Codec Unit where
  enc _ := s.toList
  dec r := (strip s.toList r).map fun r => ((), r)
  law _ rest _ := by rw [strip_append, Option.map_some]

/-- A value or `null`. -/
def orNull (c : Codec α) (h : ∀ a rest, strip "null".toList (c.enc a ++ rest) = none) :
    Codec (Option α) :=
  ((text "null").alt c fun a rest => Option.map_eq_none_iff.mpr (h a rest)).map
    (Sum.elim (fun _ => none) some) (fun o => o.elim (.inl ()) .inr) fun o => by
      cases o <;> rfl

/-- Booleans. -/
def bool : Codec Bool :=
  ((text "true").alt (text "false") fun _ _ => rfl).map
    (Sum.elim (fun _ => true) (fun _ => false)) (fun b => if b then .inl () else .inr ()) fun b => by
      cases b <;> rfl

/-! ## Sequences -/

section Sequences

variable (closing : Char) (c : Codec α)

/-- The items after the first one, and the closing character. -/
def encTail : List α → List Char
  | [] => [closing]
  | a :: as => ',' :: (c.enc a ++ encTail as)

def decTail : Nat → List Char → Option (List α × List Char)
  | 0, _ => none
  | _ + 1, [] => none
  | fuel + 1, ch :: s =>
      if ch = closing then some ([], s)
      else if ch = ',' then
        (c.dec s).bind fun r => (decTail fuel r.2).map fun t => (r.1 :: t.1, t.2)
      else none

variable {closing c}

theorem follows_encTail (hclosing : closing.isDigit = false) (as : List α) (rest : List Char) :
    Follows (encTail closing c as ++ rest) := by
  cases as with
  | nil => exact Follows.cons hclosing _
  | cons a as => exact Follows.cons (by decide) _

theorem length_encTail (as : List α) : as.length < (encTail closing c as).length := by
  induction as with
  | nil => simp [encTail]
  | cons a as ih =>
    simp only [encTail, List.length_cons, List.length_append]
    omega

theorem decTail_encTail (hclosing : closing.isDigit = false) (hcomma : closing ≠ ',')
    (rest : List Char) : ∀ (as : List α) (fuel : Nat), as.length < fuel →
      decTail closing c fuel (encTail closing c as ++ rest) = some (as, rest)
  | [], fuel + 1, _ => by simp [encTail, decTail]
  | a :: as, fuel + 1, h => by
    have hlaw := c.law a _ (follows_encTail (c := c) hclosing as rest)
    have htail := decTail_encTail hclosing hcomma rest as fuel (by simpa using h)
    simp [encTail, decTail, Ne.symm hcomma, hlaw, htail]

end Sequences

/-- Items between an opening and a closing character. -/
def seq (opening closing : Char) (c : Codec α) (hclosing : closing.isDigit = false)
    (hcomma : closing ≠ ',') (hstart : ∀ a, ∃ ch s, c.enc a = ch :: s ∧ ch ≠ closing) :
    Codec (List α) where
  enc
    | [] => [opening, closing]
    | a :: as => opening :: (c.enc a ++ encTail closing c as)
  dec s :=
    match s with
    | o :: ch :: s =>
        if o ≠ opening then none
        else if ch = closing then some ([], s)
        else
          (c.dec (ch :: s)).bind fun r =>
            (decTail closing c (r.2.length + 1) r.2).map fun t => (r.1 :: t.1, t.2)
    | _ => none
  law as rest hrest := by
    cases as with
    | nil => simp
    | cons a as =>
      obtain ⟨ch, s, henc, hne⟩ := hstart a
      have hlaw := c.law a _ (follows_encTail (c := c) hclosing as rest)
      have htail := decTail_encTail (c := c) hclosing hcomma rest as
        ((encTail closing c as ++ rest).length + 1) (by
          have hlength : as.length < (encTail closing c as).length := length_encTail as
          rw [List.length_append]
          omega)
      rw [henc, List.cons_append] at hlaw
      simp only [henc, List.cons_append, List.append_assoc, ne_eq, not_true_eq_false, if_false,
        if_neg hne, hlaw, Option.bind_some, htail, Option.map_some]

/-! ## Strings -/

def hexDigit (n : Nat) : Char := Nat.digitChar n

/-- A character inside a string. -/
def escape (c : Char) : List Char :=
  if c = '"' then ['\\', '"']
  else if c = '\\' then ['\\', '\\']
  else if 32 ≤ c.toNat then [c]
  else if c.toNat = 8 then ['\\', 'b']
  else if c.toNat = 9 then ['\\', 't']
  else if c.toNat = 10 then ['\\', 'n']
  else if c.toNat = 12 then ['\\', 'f']
  else if c.toNat = 13 then ['\\', 'r']
  else ['\\', 'u', '0', '0', hexDigit (c.toNat / 16), hexDigit (c.toNat % 16)]

def hexValue (c : Char) : Nat :=
  if c.isDigit then c.toNat - 48 else c.toNat - 87

/-- The character a single-letter escape stands for. -/
def unescape (c : Char) : Char :=
  if c = 'b' then Char.ofNat 8
  else if c = 't' then Char.ofNat 9
  else if c = 'n' then Char.ofNat 10
  else if c = 'f' then Char.ofNat 12
  else if c = 'r' then Char.ofNat 13
  else c

/-- The characters of a string up to the closing quote. -/
def decString : List Char → Option (List Char × List Char)
  | [] => none
  | '"' :: s => some ([], s)
  | '\\' :: 'u' :: a :: b :: c :: d :: s =>
      (decString s).map fun r =>
        (Char.ofNat (((hexValue a * 16 + hexValue b) * 16 + hexValue c) * 16 + hexValue d) :: r.1,
          r.2)
  | '\\' :: e :: s => (decString s).map fun r => (unescape e :: r.1, r.2)
  | c :: s => (decString s).map fun r => (c :: r.1, r.2)

theorem decString_escape (c : Char) (s : List Char) :
    decString (escape c ++ s) = (decString s).map fun r => (c :: r.1, r.2) := by
  by_cases hquote : c = '"'
  · subst hquote
    rfl
  by_cases hback : c = '\\'
  · subst hback
    rfl
  by_cases hplain : 32 ≤ c.toNat
  · simp [escape, hquote, hback, hplain, decString]
  · -- a control character
    obtain ⟨n, hn, rfl⟩ : ∃ n, n < 32 ∧ c = Char.ofNat n :=
      ⟨c.toNat, by omega, (Char.ofNat_toNat c).symm⟩
    interval_cases n <;> rfl

theorem decString_escapes (cs rest : List Char) :
    decString (cs.flatMap escape ++ '"' :: rest) = some (cs, rest) := by
  induction cs with
  | nil => rfl
  | cons c cs ih =>
    rw [List.flatMap_cons, List.append_assoc, decString_escape, ih, Option.map_some]

/-- Strings. -/
def str : Codec String where
  enc s := '"' :: (s.toList.flatMap escape ++ ['"'])
  dec s :=
    match s with
    | '"' :: s => (decString s).map fun r => (String.ofList r.1, r.2)
    | _ => none
  law s rest _ := by
    simp only [List.cons_append, List.append_assoc, List.nil_append, decString_escapes,
      Option.map_some, String.ofList_toList]

/-! ## Whole texts -/

/-- The bytes of a text. -/
def toUtf8 (s : List Char) : List UInt8 := (String.ofList s).toUTF8.data.toList

def ofUtf8? (bytes : List UInt8) : Option (List Char) :=
  (String.fromUTF8? ⟨bytes.toArray⟩).map String.toList

theorem ofUtf8?_toUtf8 (s : List Char) : ofUtf8? (toUtf8 s) = some s := by
  have hvalid : (String.ofList s).toUTF8.IsValidUTF8 := (String.ofList s).isValidUTF8
  have hbytes : (⟨(toUtf8 s).toArray⟩ : ByteArray) = (String.ofList s).toUTF8 := by
    simp [toUtf8]
  rw [ofUtf8?, hbytes, String.fromUTF8?, dif_pos hvalid, Option.map_some, String.fromUTF8]
  exact congrArg some (String.toList_ofList)

def toVec (c : Codec α) (a : α) : List UInt8 := toUtf8 (c.enc a)

/-- Read a value from a text that holds nothing else. -/
def fromSlice (c : Codec α) (bytes : List UInt8) : Option α :=
  match (ofUtf8? bytes).bind c.dec with
  | some (a, []) => some a
  | _ => none

/-- **Round trip.** -/
theorem fromSlice_toVec (c : Codec α) (a : α) : c.fromSlice (c.toVec a) = some a := by
  have hlaw := c.law a [] Follows.nil
  rw [List.append_nil] at hlaw
  rw [fromSlice, toVec, ofUtf8?_toUtf8, Option.bind_some, hlaw]

end Codec
