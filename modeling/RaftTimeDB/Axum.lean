import RaftTimeDB.Lib.Routing
import RaftTimeDB.Members

/-!
# axum

What the API of a node relies on of its HTTP framework.

* `Axum` — routing by method and path, and the extractors `Path<u64>` and `Json`, with what their
  documentation says of them; the status of other failures, and what becomes of a parameter without
  text, is open.
* `axum` — functions that do this, with the body limit that axum has by default.

A route table lists each path once, with the methods that are served there.
-/

set_option autoImplicit false

namespace RaftTimeDB.Api

open Routing (Pattern segments match? find percentDecode)

inductive Method where
  | get
  | head
  | post
  | delete
  | other
  deriving DecidableEq, Repr

structure Request where
  method : Method
  path : List Char
  /-- the content type is JSON -/
  json : Bool
  body : Bytes
  deriving DecidableEq

variable {E : Type}

/-- The endpoint for a method; axum's `get` also serves HEAD. -/
def endpointFor (methods : List (Method × E)) (method : Method) : Option E :=
  match methods.lookup method with
  | some e => some e
  | none => if method = .head then methods.lookup .get else none

theorem endpointFor_of_lookup {methods : List (Method × E)} {method : Method} {e : E}
    (h : methods.lookup method = some e) : endpointFor methods method = some e := by
  rw [endpointFor, h]

/-- axum, as far as the API relies on it.  An error is the status axum answers with. -/
structure Axum where
  /-- the endpoint for a request, with the texts of the parameters in its path -/
  route {E : Type} (table : List (Pattern × List (Method × E))) (method : Method)
    (path : List Char) : Except Nat (List (List Char) × E)
  /-- a request is routed by an entry that matches its path -/
  route_sound {E : Type} {table : List (Pattern × List (Method × E))} {method : Method}
    {path : List Char} {args : List (List Char)} {e : E} :
    route table method path = .ok (args, e) →
      ∃ segs pattern methods, segments path = some segs ∧ (pattern, methods) ∈ table ∧
        match? pattern segs = some args ∧ endpointFor methods method = some e
  /-- the only entry that matches is used -/
  route_only {E : Type} {table : List (Pattern × List (Method × E))} {method : Method}
    {path : List Char} {segs args : List (List Char)} {entry : Pattern × List (Method × E)} {e : E} :
    segments path = some segs → entry ∈ table → match? entry.1 segs = some args → [] ∉ args →
      (∀ entry' ∈ table, (match? entry'.1 segs).isSome → entry' = entry) →
      entry.2.lookup method = some e → route table method path = .ok (args, e)
  /-- a path that nothing matches is not found -/
  route_missing {E : Type} {table : List (Pattern × List (Method × E))} {path : List Char}
    (method : Method) :
    (∀ segs, segments path = some segs → ∀ entry ∈ table, match? entry.1 segs = none) →
      route table method path = .error 404
  /-- percent decoding of a parameter's text -/
  decode : List Char → Option (List Char)
  decode_plain {text : List Char} : '%' ∉ text → decode text = some text
  /-- `Path<u64>` -/
  pathU64 : List (List Char) → Except Nat Nat
  pathU64_ok {text : List Char} {n : Nat} :
    pathU64 [text] = .ok n ↔ (decode text).bind parseU64 = some n
  /-- the most bytes a body may have -/
  bodyLimit : Nat
  /-- `Json`, with `serde_json` at the type of the body -/
  json {α : Type} (fromSlice : Bytes → Except Nat α) (r : Request) : Except Nat α
  json_ok {α : Type} {fromSlice : Bytes → Except Nat α} {r : Request} {a : α} :
    json fromSlice r = .ok a ↔
      r.json = true ∧ r.body.length ≤ bodyLimit ∧ fromSlice r.body = .ok a
  json_tooLarge {α : Type} {fromSlice : Bytes → Except Nat α} {r : Request} :
    r.json = true → bodyLimit < r.body.length → json fromSlice r = .error 413
  /-- the bodies of axum's own answers, by status -/
  rejection : Nat → Bytes

/-! ## Functions that do this -/

/-- A request is routed by the lookup of its path. -/
def serve (table : List (Pattern × List (Method × E))) (method : Method) (path : List Char) :
    Except Nat (List (List Char) × E) :=
  match (segments path).bind (find table) with
  | none => .error 404
  | some (args, methods) =>
      match endpointFor methods method with
      | none => .error 405
      | some e => .ok (args, e)

variable {table : List (Pattern × List (Method × E))} {method : Method} {path : List Char}
  {args : List (List Char)} {e : E}

theorem serve_sound (h : serve table method path = .ok (args, e)) :
    ∃ segs pattern methods, segments path = some segs ∧ (pattern, methods) ∈ table ∧
      match? pattern segs = some args ∧ endpointFor methods method = some e := by
  unfold serve at h
  split at h
  · cases h
  · rename_i args' methods hfind
    obtain ⟨segs, hsegs, hfind⟩ := Option.bind_eq_some_iff.mp hfind
    split at h
    · cases h
    · rename_i e' hfor
      cases h
      obtain ⟨pattern, hmem, hmatch⟩ := Routing.find_sound hfind
      exact ⟨segs, pattern, methods, hsegs, hmem, hmatch, hfor⟩

theorem serve_only {segs : List (List Char)} {entry : Pattern × List (Method × E)}
    (hsegs : segments path = some segs) (hmem : entry ∈ table) (hmatch : match? entry.1 segs = some args)
    (honly : ∀ entry' ∈ table, (match? entry'.1 segs).isSome → entry' = entry)
    (h : entry.2.lookup method = some e) : serve table method path = .ok (args, e) := by
  have hfind := Routing.find_unique hmem hmatch honly
  simp only [serve, hsegs, Option.bind_some, hfind, endpointFor_of_lookup h]

theorem serve_missing (method : Method)
    (h : ∀ segs, segments path = some segs → ∀ entry ∈ table, match? entry.1 segs = none) :
    serve table method path = .error 404 := by
  cases hsegs : segments path with
  | none => simp only [serve, hsegs, Option.bind_none]
  | some segs =>
    have hnone : find table segs = none := by
      by_contra hsome
      obtain ⟨⟨args, methods⟩, hfind⟩ := Option.ne_none_iff_exists'.mp hsome
      obtain ⟨pattern, hmem, hmatch⟩ := Routing.find_sound hfind
      have hno := h segs hsegs _ hmem
      rw [hmatch] at hno
      cases hno
    simp only [serve, hsegs, Option.bind_some, hnone]

def readPathU64 : List (List Char) → Except Nat Nat
  | [text] =>
      match (percentDecode text).bind parseU64 with
      | some n => .ok n
      | none => .error 400
  | _ => .error 500

theorem readPathU64_ok {text : List Char} {n : Nat} :
    readPathU64 [text] = .ok n ↔ (percentDecode text).bind parseU64 = some n := by
  cases h : (percentDecode text).bind parseU64 with
  | none => simp [readPathU64, h]
  | some n' => simp [readPathU64, h]

/-- 2 MiB. -/
def defaultBodyLimit : Nat := 2097152

def readJson {α : Type} (fromSlice : Bytes → Except Nat α) (r : Request) : Except Nat α :=
  if r.json then
    if r.body.length ≤ defaultBodyLimit then fromSlice r.body else .error 413
  else .error 415

theorem readJson_ok {α : Type} {fromSlice : Bytes → Except Nat α} {r : Request} {a : α} :
    readJson fromSlice r = .ok a ↔
      r.json = true ∧ r.body.length ≤ defaultBodyLimit ∧ fromSlice r.body = .ok a := by
  unfold readJson
  by_cases hjson : r.json = true
  · by_cases hlength : r.body.length ≤ defaultBodyLimit
    · simp [hjson, hlength]
    · simp [hjson, hlength]
  · simp [hjson]

def tooLargeText : String := "Failed to buffer the request body: length limit exceeded"

def axum : Axum where
  route := serve
  route_sound := serve_sound
  route_only hsegs hmem hmatch _ := serve_only hsegs hmem hmatch
  route_missing := serve_missing
  decode := percentDecode
  decode_plain := Routing.percentDecode_plain
  pathU64 := readPathU64
  pathU64_ok := readPathU64_ok
  bodyLimit := defaultBodyLimit
  json := readJson
  json_ok := readJson_ok
  json_tooLarge hjson hlength := by rw [readJson, if_pos hjson, if_neg (Nat.not_le.mpr hlength)]
  rejection status := Codec.toUtf8 (if status = 413 then tooLargeText.toList else [])

end RaftTimeDB.Api
