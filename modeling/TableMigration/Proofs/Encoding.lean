import Mathlib.Tactic.SplitIfs
import TableMigration.Text.Utf8

/-!
# Texts as bytes

The bytes of texts are ordered as the texts are, so that a listing in ascending order of bytes has its
texts in ascending order too. Read back, however broken the bytes around it may be, a character is what
it was.
-/

namespace TableMigration.Text

/-! ## Order -/

theorem digit_lt {m n : Nat} (base : Nat) (h : m < n) :
    m / base < n / base ∨ m / base = n / base ∧ m % base < n % base := by
  obtain less | same := Nat.lt_or_eq_of_le (Nat.div_le_div_right (c := base) (Nat.le_of_lt h))
  · exact Or.inl less
  · refine Or.inr ⟨same, ?_⟩
    have hm := Nat.div_add_mod m base
    have hn := Nat.div_add_mod n base
    rw [same] at hm
    omega

theorem byte_lt {m n : Nat} (hm : m < 256) (hn : n < 256) {xs ys : List UInt8} :
    UInt8.ofNat m :: xs < UInt8.ofNat n :: ys ↔ m < n ∨ m = n ∧ xs < ys := by
  rw [List.cons_lt_cons_iff, UInt8.lt_iff_toNat_lt, ← UInt8.toNat_inj, UInt8.toNat_ofNat_of_lt' hm,
    UInt8.toNat_ofNat_of_lt' hn]

theorem toNat_val_lt (c : Char) : c.val.toNat < 0x110000 := by
  have valid := c.valid
  unfold UInt32.isValidChar Nat.isValidChar at valid
  omega

/-- Longer sequences begin with greater bytes, and sequences of one length are numbers to the base 64. -/
theorem utf8EncodeChar_lt {c d : Char} (h : c < d) (xs ys : List UInt8) :
    String.utf8EncodeChar c ++ xs < String.utf8EncodeChar d ++ ys := by
  have less : c.val.toNat < d.val.toNat := h
  have bound := toNat_val_lt d
  unfold String.utf8EncodeChar
  generalize c.val.toNat = m at *
  generalize d.val.toNat = n at *
  have last := digit_lt 64 less
  have third : m / 64 < n / 64 → _ := digit_lt 64
  have second : m / 4096 < n / 4096 → _ := digit_lt 64
  simp only [Nat.div_div_eq_div_mul, Nat.reduceMul] at third second
  have lead : m / 262144 % 8 = m / 262144 := Nat.mod_eq_of_lt (by omega)
  have lead' : n / 262144 % 8 = n / 262144 := Nat.mod_eq_of_lt (by omega)
  dsimp only
  rw [lead, lead']
  split_ifs
  all_goals simp (disch := omega) only [List.cons_append, List.nil_append, byte_lt]
  all_goals omega

theorem flatMap_utf8EncodeChar_lt {cs ds : List Char} (h : cs < ds) :
    cs.flatMap String.utf8EncodeChar < ds.flatMap String.utf8EncodeChar := by
  induction ds generalizing cs with
  | nil => exact absurd h (List.not_lt_nil cs)
  | cons d ds ih =>
    rw [List.flatMap_cons]
    cases cs with
    | nil =>
      obtain ⟨b, bs, lead⟩ := List.exists_cons_of_ne_nil (String.utf8EncodeChar_ne_nil (c := d))
      rw [lead]
      exact List.nil_lt_cons _ _
    | cons c cs =>
      rw [List.flatMap_cons]
      obtain less | ⟨rfl, rest⟩ := List.cons_lt_cons_iff.mp h
      · exact utf8EncodeChar_lt less _ _
      · exact List.append_left_lt (ih rest)

theorem encode_lt {s t : String} (h : s < t) : encode s < encode t :=
  flatMap_utf8EncodeChar_lt h

theorem encode_lt_iff {s t : String} : encode s < encode t ↔ s < t := by
  refine ⟨fun less => ?_, encode_lt⟩
  obtain here | rfl | there := Std.lt_trichotomy s t
  · exact here
  · exact absurd less (List.lt_irrefl _)
  · exact absurd less (List.lt_asymm (encode_lt there))

/-! ## Reading back -/

section
variable {b low high : UInt8} {due : List (UInt8 × UInt8)}

theorem chunksFrom_alone (lead : following b = some []) (bs : List UInt8) :
    chunksFrom [] 0 [] (b :: bs) = .char (Char.ofNat b.toNat) :: chunksFrom [] 0 [] bs := by
  rw [chunksFrom, lead]

theorem chunksFrom_lead (lead : following b = some due) (more : due ≠ []) (bs : List UInt8) :
    chunksFrom [] 0 [] (b :: bs) = chunksFrom [b] (leadBits b due.length) due bs := by
  obtain ⟨range, due, rfl⟩ := List.exists_cons_of_ne_nil more
  rw [chunksFrom, lead]

theorem chunksFrom_next (within : low ≤ b ∧ b ≤ high) (begun : List UInt8) (code : Nat) (bs : List UInt8) :
    chunksFrom begun code ((low, high) :: due) (b :: bs) =
      if due = [] then .char (Char.ofNat (code * 64 + (b.toNat - 0x80))) :: chunksFrom [] 0 [] bs
      else chunksFrom (begun ++ [b]) (code * 64 + (b.toNat - 0x80)) due bs := by
  rw [chunksFrom, if_pos within]

end

section
variable {n : Nat}

theorem following_alone (h : n < 0x80) : following (UInt8.ofNat n) = some [] := by
  have small : UInt8.ofNat n < 0x80 := by
    rw [UInt8.lt_iff_toNat_lt, UInt8.toNat_ofNat_of_lt' (Nat.lt_trans h (by decide))]
    exact h
  rw [following, if_pos small]

theorem following_ofNat (h : n < 256) (wide : 0xC2 ≤ n) : following (UInt8.ofNat n) =
    if n < 0xE0 then some [(0x80, 0xBF)]
    else if n < 0xF0 then
      some [(if n = 0xE0 then 0xA0 else 0x80, if n = 0xED then 0x9F else 0xBF), (0x80, 0xBF)]
    else if n < 0xF5 then
      some [(if n = 0xF0 then 0x90 else 0x80, if n = 0xF4 then 0x8F else 0xBF), (0x80, 0xBF), (0x80, 0xBF)]
    else none := by
  have lt : ∀ b : UInt8, UInt8.ofNat n < b ↔ n < b.toNat := fun b => by
    rw [UInt8.lt_iff_toNat_lt, UInt8.toNat_ofNat_of_lt' h]
  have eq : ∀ b : UInt8, UInt8.ofNat n = b ↔ n = b.toNat := fun b => by
    rw [← UInt8.toNat_inj, UInt8.toNat_ofNat_of_lt' h]
  simp only [following, lt, eq, UInt8.reduceToNat]
  split_ifs <;> first | rfl | omega

theorem chunksFrom_continuation {low high : UInt8} (h : n < 256) (least : low.toNat ≤ n)
    (most : n ≤ high.toNat) (begun : List UInt8) (code : Nat) (due : List (UInt8 × UInt8)) (bs : List UInt8) :
    chunksFrom begun code ((low, high) :: due) (UInt8.ofNat n :: bs) =
      if due = [] then .char (Char.ofNat (code * 64 + (n - 0x80))) :: chunksFrom [] 0 [] bs
      else chunksFrom (begun ++ [UInt8.ofNat n]) (code * 64 + (n - 0x80)) due bs := by
  have within : low ≤ UInt8.ofNat n ∧ UInt8.ofNat n ≤ high := by
    rw [UInt8.le_iff_toNat_le, UInt8.le_iff_toNat_le, UInt8.toNat_ofNat_of_lt' h]
    exact ⟨least, most⟩
  rw [chunksFrom_next within, UInt8.toNat_ofNat_of_lt' h]

theorem chunksFrom_tail (h : n < 64) (begun : List UInt8) (code : Nat) (due : List (UInt8 × UInt8))
    (bs : List UInt8) : chunksFrom begun code ((0x80, 0xBF) :: due) (UInt8.ofNat (n + 128) :: bs) =
      if due = [] then .char (Char.ofNat (code * 64 + n)) :: chunksFrom [] 0 [] bs
      else chunksFrom (begun ++ [UInt8.ofNat (n + 128)]) (code * 64 + n) due bs := by
  have least : (0x80 : UInt8).toNat ≤ n + 128 := Nat.le_add_left 128 n
  have most : n + 128 ≤ (0xBF : UInt8).toNat := Nat.add_le_add_right (Nat.le_of_lt_succ h) 128
  rw [chunksFrom_continuation (by omega) least most, Nat.add_sub_cancel]

theorem leadBits_ofNat (h : n < 256) : leadBits (UInt8.ofNat n) 1 = n - 0xC0 ∧
    leadBits (UInt8.ofNat n) 2 = n - 0xE0 ∧ leadBits (UInt8.ofNat n) 3 = n - 0xF0 :=
  ⟨congrArg (· - 0xC0) (UInt8.toNat_ofNat_of_lt' h), congrArg (· - 0xE0) (UInt8.toNat_ofNat_of_lt' h),
    congrArg (· - 0xF0) (UInt8.toNat_ofNat_of_lt' h)⟩

theorem chunksFrom_two (least : 128 ≤ n) (most : n < 2048) (bs : List UInt8) :
    chunksFrom [] 0 [] (UInt8.ofNat (n / 64 % 32 + 192) :: UInt8.ofNat (n % 64 + 128) :: bs) =
      .char (Char.ofNat n) :: chunksFrom [] 0 [] bs := by
  have lead := following_ofNat (n := n / 64 % 32 + 192) (by omega) (by omega)
  rw [if_pos (by omega)] at lead
  rw [chunksFrom_lead lead (List.cons_ne_nil _ _), chunksFrom_tail (n := n % 64) (by omega), if_pos rfl]
  have code : (n / 64 % 32 + 192 - 0xC0) * 64 + n % 64 = n := by omega
  rw [List.length_singleton, (leadBits_ofNat (by omega)).1, code]

theorem chunksFrom_three (least : 2048 ≤ n) (most : n < 65536) (valid : n < 0xD800 ∨ 0xE000 ≤ n)
    (bs : List UInt8) :
    chunksFrom [] 0 [] (UInt8.ofNat (n / 4096 % 16 + 224) :: UInt8.ofNat (n / 64 % 64 + 128) ::
      UInt8.ofNat (n % 64 + 128) :: bs) = .char (Char.ofNat n) :: chunksFrom [] 0 [] bs := by
  have lead := following_ofNat (n := n / 4096 % 16 + 224) (by omega) (by omega)
  rw [if_neg (by omega), if_pos (by omega)] at lead
  rw [chunksFrom_lead lead (List.cons_ne_nil _ _), chunksFrom_continuation (by omega)]
  · rw [if_neg (List.cons_ne_nil _ _), chunksFrom_tail (n := n % 64) (by omega), if_pos rfl]
    have code : ((n / 4096 % 16 + 224 - 0xE0) * 64 + (n / 64 % 64 + 128 - 128)) * 64 + n % 64 = n := by
      omega
    rw [List.length_cons, List.length_singleton, (leadBits_ofNat (by omega)).2.1, code]
  · split_ifs
    · show 160 ≤ _; omega
    · show 128 ≤ _; omega
  · split_ifs
    · show _ ≤ 159; omega
    · show _ ≤ 191; omega

theorem chunksFrom_four (least : 65536 ≤ n) (most : n < 0x110000) (bs : List UInt8) :
    chunksFrom [] 0 [] (UInt8.ofNat (n / 262144 % 8 + 240) :: UInt8.ofNat (n / 4096 % 64 + 128) ::
      UInt8.ofNat (n / 64 % 64 + 128) :: UInt8.ofNat (n % 64 + 128) :: bs) =
      .char (Char.ofNat n) :: chunksFrom [] 0 [] bs := by
  have lead := following_ofNat (n := n / 262144 % 8 + 240) (by omega) (by omega)
  rw [if_neg (by omega), if_neg (by omega), if_pos (by omega)] at lead
  rw [chunksFrom_lead lead (List.cons_ne_nil _ _), chunksFrom_continuation (by omega)]
  · rw [if_neg (List.cons_ne_nil _ _), chunksFrom_tail (n := n / 64 % 64) (by omega),
      if_neg (List.cons_ne_nil _ _), chunksFrom_tail (n := n % 64) (by omega), if_pos rfl]
    have code : (((n / 262144 % 8 + 240 - 0xF0) * 64 + (n / 4096 % 64 + 128 - 128)) * 64 + n / 64 % 64) * 64 +
        n % 64 = n := by
      omega
    rw [List.length_cons, List.length_cons, List.length_singleton, (leadBits_ofNat (by omega)).2.2, code]
  · split_ifs
    · show 144 ≤ _; omega
    · show 128 ≤ _; omega
  · split_ifs
    · show _ ≤ 143; omega
    · show _ ≤ 191; omega

end

theorem chunksFrom_utf8EncodeChar (c : Char) (bs : List UInt8) :
    chunksFrom [] 0 [] (String.utf8EncodeChar c ++ bs) = .char c :: chunksFrom [] 0 [] bs := by
  have bound := toNat_val_lt c
  have valid : c.val.toNat < 0xD800 ∨ 0xE000 ≤ c.val.toNat := by
    obtain low | high := c.valid
    · exact Or.inl low
    · exact Or.inr high.1
  have code : Char.ofNat c.val.toNat = c := Char.ofNat_toNat c
  unfold String.utf8EncodeChar
  dsimp only
  split_ifs with one two three
  · have small : c.val.toNat < 128 := Nat.lt_succ_of_le one
    rw [List.singleton_append, chunksFrom_alone (following_alone small),
      UInt8.toNat_ofNat_of_lt' (Nat.lt_trans small (by decide)), code]
  · have step := chunksFrom_two (n := c.val.toNat) (by omega) (by omega) bs
    rwa [code] at step
  · have step := chunksFrom_three (n := c.val.toNat) (by omega) (by omega) valid bs
    rwa [code] at step
  · have step := chunksFrom_four (n := c.val.toNat) (by omega) bound bs
    rwa [code] at step

theorem readLossy_encode (s : String) : readLossy (encode s) = s := by
  have each : ∀ cs : List Char, chunksFrom [] 0 [] (cs.flatMap String.utf8EncodeChar) = cs.map .char := by
    intro cs
    induction cs with
    | nil => rfl
    | cons c cs ih => rw [List.flatMap_cons, chunksFrom_utf8EncodeChar, ih, List.map_cons]
  rw [readLossy, chunks, encode, each, List.map_map]
  simp [Function.comp_def, Chunk.shown]

end TableMigration.Text
