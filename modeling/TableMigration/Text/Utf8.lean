/-!
# Texts and bytes

The UTF-8 bytes of a text, and three ways back: `read?` and `decode` take bytes only if they are those
of a text, and `decode` says where they stop being so; `readLossy` takes all bytes, and gives one
replacement character for each longest run of bytes that begins a character and does not end it.
-/

namespace TableMigration.Text

def encode (s : String) : List UInt8 :=
  s.toList.flatMap String.utf8EncodeChar

def read? (bytes : List UInt8) : Option String :=
  String.fromUTF8? ⟨bytes.toArray⟩

/-- Where bytes stop being UTF-8: the index of the first byte outside a character, and the length
of the broken sequence there, or nothing if the bytes end inside a character. -/
structure Utf8Fault where
  index : Nat
  length : Option Nat
  deriving DecidableEq, Repr

def Utf8Fault.message (f : Utf8Fault) : String :=
  match f.length with
  | some n => s!"invalid utf-8 sequence of {n} bytes from index " ++ toString f.index
  | none => "incomplete utf-8 byte sequence from index " ++ toString f.index

/-- The ranges of the bytes that must follow `lead` in its character, if it can begin one. -/
def following (lead : UInt8) : Option (List (UInt8 × UInt8)) :=
  if lead < 0x80 then some []
  else if lead < 0xC2 then none
  else if lead < 0xE0 then some [(0x80, 0xBF)]
  else if lead = 0xE0 then some [(0xA0, 0xBF), (0x80, 0xBF)]
  else if lead = 0xED then some [(0x80, 0x9F), (0x80, 0xBF)]
  else if lead < 0xF0 then some [(0x80, 0xBF), (0x80, 0xBF)]
  else if lead = 0xF0 then some [(0x90, 0xBF), (0x80, 0xBF), (0x80, 0xBF)]
  else if lead < 0xF4 then some [(0x80, 0xBF), (0x80, 0xBF), (0x80, 0xBF)]
  else if lead = 0xF4 then some [(0x80, 0x8F), (0x80, 0xBF), (0x80, 0xBF)]
  else none

def faultFrom (start index : Nat) (due : List (UInt8 × UInt8)) : List UInt8 → Option Utf8Fault
  | [] => if due = [] then none else some ⟨start, none⟩
  | b :: bs =>
    match due with
    | [] =>
      match following b with
      | none => some ⟨index, some 1⟩
      | some due => faultFrom index (index + 1) due bs
    | (low, high) :: due =>
      if low ≤ b ∧ b ≤ high then faultFrom start (index + 1) due bs
      else some ⟨start, some (index - start)⟩

def decode (bytes : ByteArray) : Except Utf8Fault String :=
  match String.fromUTF8? bytes with
  | some s => .ok s
  | none => .error ((faultFrom 0 0 [] bytes.data.toList).getD ⟨bytes.size, none⟩)

inductive Chunk
  | char (c : Char)
  | broken (bytes : List UInt8)
  deriving DecidableEq, Repr

def leadBits (lead : UInt8) (more : Nat) : Nat :=
  match more with
  | 0 => lead.toNat
  | 1 => lead.toNat - 0xC0
  | 2 => lead.toNat - 0xE0
  | _ => lead.toNat - 0xF0

/-- Reads on in a character of which the bytes `begun` are read, with the bits `code` so far, and
which lacks bytes in the ranges `due`. -/
def chunksFrom (begun : List UInt8) (code : Nat) (due : List (UInt8 × UInt8)) :
    List UInt8 → List Chunk
  | [] => if due = [] then [] else [.broken begun]
  | b :: bs =>
    let fresh := match following b with
      | none => .broken [b] :: chunksFrom [] 0 [] bs
      | some [] => .char (Char.ofNat b.toNat) :: chunksFrom [] 0 [] bs
      | some due => chunksFrom [b] (leadBits b due.length) due bs
    match due with
    | [] => fresh
    | (low, high) :: due =>
      if low ≤ b ∧ b ≤ high then
        let code := code * 64 + (b.toNat - 0x80)
        if due = [] then .char (Char.ofNat code) :: chunksFrom [] 0 [] bs
        else chunksFrom (begun ++ [b]) code due bs
      else .broken begun :: fresh

def chunks (bytes : List UInt8) : List Chunk :=
  chunksFrom [] 0 [] bytes

def replacement : Char := '\uFFFD'

def Chunk.shown : Chunk → Char
  | .char c => c
  | .broken _ => replacement

def readLossy (bytes : List UInt8) : String :=
  String.ofList ((chunks bytes).map Chunk.shown)

def decodeLossy (bytes : ByteArray) : String :=
  readLossy bytes.data.toList

theorem toUTF8_eq (s : String) : s.toUTF8 = ⟨(encode s).toArray⟩ := by
  apply ByteArray.ext
  apply Array.toList_inj.mp
  show s.toByteArray.data.toList = _
  rw [← String.utf8Encode_toList]
  simp [List.utf8Encode, encode]

theorem decode_toUTF8 (s : String) : decode s.toUTF8 = .ok s := by
  have h : String.fromUTF8? s.toUTF8 = some s := by
    simp [String.fromUTF8?, String.fromUTF8, String.isValidUTF8]
  unfold decode
  rw [h]

theorem read?_eq_some_iff {bytes : List UInt8} {s : String} : read? bytes = some s ↔ encode s = bytes := by
  unfold read? String.fromUTF8?
  constructor
  · intro h
    split at h
    next valid =>
      cases h
      have same : (String.fromUTF8 ⟨bytes.toArray⟩ valid).toUTF8 = ⟨bytes.toArray⟩ := rfl
      rw [toUTF8_eq] at same
      simpa using congrArg ByteArray.data same
    next => cases h
  · rintro rfl
    rw [← toUTF8_eq]
    simp [String.fromUTF8, String.isValidUTF8]

theorem read?_encode (s : String) : read? (encode s) = some s :=
  read?_eq_some_iff.mpr rfl

theorem encode_injective {s t : String} (h : encode s = encode t) : s = t :=
  Option.some.inj ((read?_encode s).symm.trans (h ▸ read?_encode t))

end TableMigration.Text
