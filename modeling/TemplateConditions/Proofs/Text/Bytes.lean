import Mathlib.Data.List.Basic

/-!
# Texts as bytes

The bytes of a text in UTF-8.  Of two different characters the one with the smaller code point has
the smaller bytes, whatever follows them, and so texts compare in the same way by their characters
and by their bytes.
-/

namespace TemplateConditions.Text

/-- The bytes of a text in UTF-8. -/
def utf8 (text : String) : List UInt8 :=
  text.toUTF8.data.toList

theorem utf8_ofList (cs : List Char) :
    utf8 (String.ofList cs) = cs.flatMap String.utf8EncodeChar := by
  rw [utf8, String.toUTF8_eq_toByteArray, String.toByteArray_ofList, List.utf8Encode,
    List.toList_data_toByteArray]

theorem utf8_eq (text : String) : utf8 text = text.toList.flatMap String.utf8EncodeChar := by
  rw [← utf8_ofList, String.ofList_toList]

/-- A text is known by its bytes. -/
theorem utf8_injective : Function.Injective utf8 := by
  intro a b h
  rw [utf8, utf8, String.toUTF8_eq_toByteArray, String.toUTF8_eq_toByteArray] at h
  exact String.toByteArray_inj.1 (ByteArray.ext (Array.toList_inj.1 h))

/-- The bytes of a text are read back as that text. -/
theorem fromUTF8?_toUTF8 (text : String) : String.fromUTF8? text.toUTF8 = some text := by
  unfold String.fromUTF8?
  rw [String.toUTF8_eq_toByteArray, dif_pos text.isValidUTF8]
  rfl

/-- ASCII characters are one byte each. -/
theorem flatMap_utf8EncodeChar_of_ascii {cs : List Char} (h : ∀ c ∈ cs, c.toNat ≤ 0x7f) :
    cs.flatMap String.utf8EncodeChar = cs.map fun c => UInt8.ofNat c.toNat := by
  induction cs with
  | nil => rfl
  | cons c rest ih =>
    obtain ⟨hc, hrest⟩ := List.forall_mem_cons.1 h
    have hbyte : String.utf8EncodeChar c = [UInt8.ofNat c.toNat] := if_pos hc
    rw [List.flatMap_cons, List.map_cons, hbyte, ih hrest, List.singleton_append]

/-! ## Order -/

theorem uint8_ofNat_lt {m n : Nat} (hm : m < 256) (hn : n < 256) :
    UInt8.ofNat m < UInt8.ofNat n ↔ m < n := by
  rw [UInt8.lt_iff_toNat_lt, UInt8.toNat_ofNat_of_lt' hm, UInt8.toNat_ofNat_of_lt' hn]

theorem uint8_ofNat_inj {m n : Nat} (hm : m < 256) (hn : n < 256) :
    UInt8.ofNat m = UInt8.ofNat n ↔ m = n := by
  rw [← UInt8.toNat_inj, UInt8.toNat_ofNat_of_lt' hm, UInt8.toNat_ofNat_of_lt' hn]

theorem cons_ofNat_lt {m n : Nat} (hm : m < 256) (hn : n < 256) (xs ys : List UInt8) :
    UInt8.ofNat m :: xs < UInt8.ofNat n :: ys ↔ m < n ∨ m = n ∧ xs < ys := by
  rw [List.cons_lt_cons_iff, uint8_ofNat_lt hm hn, uint8_ofNat_inj hm hn]

/-- The bytes of a smaller character are smaller, whatever follows. -/
theorem utf8EncodeChar_lt {a b : Char} (h : a < b) (xs ys : List UInt8) :
    String.utf8EncodeChar a ++ xs < String.utf8EncodeChar b ++ ys := by
  have hlt : a.val.toNat < b.val.toNat := h
  have hb : b.val.toNat < 0x110000 := by
    rcases b.valid with hsmall | ⟨_, hlarge⟩
    · exact Nat.lt_trans hsmall (by decide)
    · exact hlarge
  -- All bytes but the first are digits to the base 64, told by repeated division.
  have htwo : ∀ k, k / 4096 = k / 64 / 64 := fun k => by omega
  have hthree : ∀ k, k / 262144 = k / 64 / 64 / 64 := fun k => by omega
  unfold String.utf8EncodeChar
  generalize a.val.toNat = m at hlt
  generalize b.val.toNat = n at hlt hb
  simp only [htwo, hthree]
  -- The first byte tells the number of bytes; of two equally long forms the digits decide.
  split_ifs
  all_goals
    simp (disch := omega) only [List.cons_append, List.nil_append, cons_ofNat_lt]
    omega

theorem flatMap_utf8EncodeChar_lt {cs ds : List Char} (h : cs < ds) :
    cs.flatMap String.utf8EncodeChar < ds.flatMap String.utf8EncodeChar := by
  induction cs generalizing ds with
  | nil =>
    cases ds with
    | nil => exact absurd h (List.lt_irrefl [])
    | cons d rest =>
      rw [List.flatMap_nil, List.flatMap_cons]
      have hbytes : String.utf8EncodeChar d ≠ [] := String.utf8EncodeChar_ne_nil
      obtain ⟨byte, bytes, hd⟩ := List.exists_cons_of_ne_nil hbytes
      rw [hd, List.cons_append]
      exact List.nil_lt_cons byte _
  | cons c rest ih =>
    cases ds with
    | nil => exact absurd h (List.not_lt_nil _)
    | cons d others =>
      rw [List.flatMap_cons, List.flatMap_cons]
      rcases List.cons_lt_cons_iff.1 h with hlt | ⟨rfl, hrest⟩
      · exact utf8EncodeChar_lt hlt _ _
      · exact List.append_left_lt (ih hrest)

/-- Texts are in the order of their bytes. -/
theorem lt_iff_utf8_lt {a b : String} : a < b ↔ utf8 a < utf8 b := by
  rw [String.lt_iff, utf8_eq, utf8_eq]
  refine ⟨flatMap_utf8EncodeChar_lt, fun h => ?_⟩
  by_contra hnot
  -- Otherwise the second text is the first one or comes before it, and so do its bytes.
  rcases List.le_iff_lt_or_eq.1 (List.not_lt.1 hnot) with hlt | heq
  · exact List.lt_asymm h (flatMap_utf8EncodeChar_lt hlt)
  · rw [heq] at h
    exact List.lt_irrefl _ h

theorem compare_eq_lt_iff {a b : String} : compare a b = .lt ↔ utf8 a < utf8 b :=
  compareOfLessAndEq_eq_lt.trans lt_iff_utf8_lt

end TemplateConditions.Text
