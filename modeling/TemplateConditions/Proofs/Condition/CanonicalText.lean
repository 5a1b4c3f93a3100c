import TemplateConditions.Condition.Reference
import TemplateConditions.Proofs.Json.Readback
import TemplateConditions.Proofs.Text.Bytes

/-!
# What tokens tell

The canonical text of a reference is printable ASCII, and reading it as JSON gives the expression
`Ref` of the name.  So it tells names apart, whatever they are made of, and two names have one token
only where SHA-1 collides.
-/

namespace TemplateConditions

namespace Reference

/-! ## Code units -/

/-- Code units, each as an escape. -/
def unitEscapes (units : List Nat) : List Char :=
  units.flatMap fun unit => '\\' :: 'u' :: Text.hexDigits 4 unit

theorem printable_unitEscapes {units : List Nat} {d : Char} (h : d ∈ unitEscapes units) :
    0x20 ≤ d.toNat ∧ d.toNat < 0x7f := by
  obtain ⟨unit, -, hmem⟩ := List.mem_flatMap.1 h
  rcases List.mem_cons.1 hmem with rfl | hmem
  · decide
  · rcases List.mem_cons.1 hmem with rfl | hmem
    · decide
    · obtain ⟨digit, hdigit, rfl⟩ := Text.exists_of_mem_hexDigits hmem
      exact Text.hexDigit_printable hdigit

/-- The escapes of the code units of a character are read as that character, a pair of surrogates as
the one that they stand for. -/
theorem exists_unitEscapes (c : Char) :
    ∃ behind, unitEscapes (codeUnits c) = '\\' :: 'u' :: behind ∧
      ∀ rest, Json.readCodeEscape? (behind ++ rest) = some (c, rest) := by
  -- No character is a surrogate.
  have hvalid : c.toNat < 0xd800 ∨ 0xdfff < c.toNat ∧ c.toNat < 0x110000 := c.valid
  unfold codeUnits
  split
  · rename_i hbasic
    have hnotLow : ¬ (0xdc00 ≤ c.toNat ∧ c.toNat < 0xe000) := by omega
    have hnotHigh : ¬ (0xd800 ≤ c.toNat ∧ c.toNat < 0xdc00) := by omega
    refine ⟨Text.hexDigits 4 c.toNat, by simp [unitEscapes], fun rest => ?_⟩
    rw [Json.readCodeEscape?, Json.readUnit?_hexDigits hbasic, Option.bind_eq_bind,
      Option.bind_some]
    dsimp only
    rw [if_neg hnotLow, if_neg hnotHigh, Char.ofNat_toNat]
  · rename_i hbasic
    -- Both halves lie in their ranges, so that the pair is put together again.
    generalize hupper : 0xd800 + (c.toNat - 0x10000) / 0x400 = upper
    generalize hlower : 0xdc00 + (c.toNat - 0x10000) % 0x400 = lower
    have hhigh : 0xd800 ≤ upper ∧ upper < 0xdc00 := by omega
    have hlow : 0xdc00 ≤ lower ∧ lower < 0xe000 := by omega
    have hpair : 0x10000 + (upper - 0xd800) * 0x400 + (lower - 0xdc00) = c.toNat := by omega
    have hnotLow : ¬ (0xdc00 ≤ upper ∧ upper < 0xe000) := by omega
    refine ⟨Text.hexDigits 4 upper ++ '\\' :: 'u' :: Text.hexDigits 4 lower, by simp [unitEscapes],
      fun rest => ?_⟩
    rw [List.append_assoc, Json.readCodeEscape?, Json.readUnit?_hexDigits (by omega),
      Option.bind_eq_bind, Option.bind_some]
    dsimp only [List.cons_append]
    rw [if_neg hnotLow, if_pos hhigh]
    show (Json.readUnit? (Text.hexDigits 4 lower ++ rest)).bind _ = _
    rw [Json.readUnit?_hexDigits (by omega), Option.bind_some]
    dsimp only
    rw [if_pos hlow, hpair, Char.ofNat_toNat]

/-! ## Characters -/

/-- The forms in which the canonical text may hold a character: as it is, by a letter behind a
backslash, or by its code units. -/
inductive Spelled (c : Char) : List Char → Prop
  | plain : 0x20 ≤ c.toNat → c.toNat < 0x7f → c ≠ '"' → c ≠ '\\' → Spelled c [c]
  | letter {letter : Char} : 0x20 ≤ letter.toNat ∧ letter.toNat < 0x7f →
    (∀ rest, Json.readEscape? (letter :: rest) = some (c, rest)) → Spelled c ['\\', letter]
  | units : Spelled c (unitEscapes (codeUnits c))

theorem flatMap_asciiOnly {cs : List Char} (h : ∀ c ∈ cs, c.toNat < 0x7f) :
    cs.flatMap asciiOnly = cs := by
  induction cs with
  | nil => rfl
  | cons c rest ih =>
    obtain ⟨hc, hrest⟩ := List.forall_mem_cons.1 h
    rw [List.flatMap_cons, ih hrest, asciiOnly, if_pos hc, List.singleton_append]

/-- What quoting writes for a character is in one of these forms once it is written in ASCII; the
escapes that quoting makes are not escaped again. -/
theorem spelled_escape (c : Char) : Spelled c ((Json.escape c).flatMap asciiOnly) := by
  unfold Json.escape
  split
  · exact .letter (by decide) fun rest => rfl
  · exact .letter (by decide) fun rest => rfl
  · exact .letter (by decide) fun rest => rfl
  · exact .letter (by decide) fun rest => rfl
  · exact .letter (by decide) fun rest => rfl
  · exact .letter (by decide) fun rest => rfl
  · exact .letter (by decide) fun rest => rfl
  · rename_i hquote hbackslash _ _ _ _ _
    split
    · rename_i hcontrol
      have hunits : '\\' :: 'u' :: Text.hexDigits 4 c.toNat = unitEscapes (codeUnits c) := by
        rw [codeUnits, if_pos (by omega), unitEscapes, List.flatMap_singleton]
      have hascii : ∀ d ∈ unitEscapes (codeUnits c), d.toNat < 0x7f :=
        fun d hd => (printable_unitEscapes hd).2
      rw [hunits, flatMap_asciiOnly hascii]
      exact .units
    · rename_i hcontrol
      rw [List.flatMap_singleton, asciiOnly]
      split
      · rename_i hascii
        exact .plain (Nat.le_of_not_lt hcontrol) hascii hquote hbackslash
      · exact .units

theorem Spelled.printable {c : Char} {text : List Char} (h : Spelled c text) :
    ∀ d ∈ text, 0x20 ≤ d.toNat ∧ d.toNat < 0x7f := by
  cases h with
  | plain hlow hhigh => exact List.forall_mem_singleton.2 ⟨hlow, hhigh⟩
  | letter hletter =>
    exact List.forall_mem_cons.2 ⟨by decide, List.forall_mem_singleton.2 hletter⟩
  | units => exact fun d hd => printable_unitEscapes hd

theorem Spelled.length_pos {c : Char} {text : List Char} (h : Spelled c text) :
    0 < text.length := by
  cases h with
  | plain => exact Nat.one_pos
  | letter => exact Nat.two_pos
  | units =>
    obtain ⟨behind, htext, -⟩ := exists_unitEscapes c
    rw [htext]
    exact Nat.succ_pos _

/-- A string goes on with the character that its text goes on with. -/
theorem Spelled.readChars? {c : Char} {text : List Char} (h : Spelled c text) (fuel : Nat)
    (rest : List Char) : Json.readChars? (fuel + 1) (text ++ rest) =
      (Json.readChars? fuel rest).map fun (cs, rest) => (c :: cs, rest) := by
  cases h with
  | plain hlow _ hquote hbackslash => exact Json.readChars?_plain hlow hquote hbackslash fuel rest
  | letter _ hread => exact Json.readChars?_escape (hread rest) fuel
  | units =>
    obtain ⟨behind, htext, hread⟩ := exists_unitEscapes c
    have hescape : Json.readEscape? ('u' :: behind ++ rest) = some (c, rest) := hread rest
    rw [htext]
    exact Json.readChars?_escape hescape fuel

/-! ## Names -/

/-- The characters of a name as the canonical text has them. -/
def spelling (cs : List Char) : List Char :=
  cs.flatMap fun c => (Json.escape c).flatMap asciiOnly

theorem spelling_cons (c : Char) (rest : List Char) :
    spelling (c :: rest) = (Json.escape c).flatMap asciiOnly ++ spelling rest := by
  rw [spelling, List.flatMap_cons, spelling]

theorem printable_spelling {cs : List Char} {d : Char} (h : d ∈ spelling cs) :
    0x20 ≤ d.toNat ∧ d.toNat < 0x7f := by
  obtain ⟨c, -, hd⟩ := List.mem_flatMap.1 h
  exact (spelled_escape c).printable d hd

theorem length_le_spelling (cs : List Char) : cs.length ≤ (spelling cs).length := by
  induction cs with
  | nil => rfl
  | cons c rest ih =>
    have hpos := (spelled_escape c).length_pos
    rw [spelling_cons, List.length_append, List.length_cons]
    omega

theorem readString?_spelling {cs : List Char} {fuel : Nat} (h : cs.length < fuel)
    (rest : List Char) : Json.readString? fuel ('"' :: (spelling cs ++ '"' :: rest)) =
      some (String.ofList cs, rest) := by
  apply Json.readString?_of_chars
  induction cs generalizing fuel with
  | nil =>
    cases fuel with
    | zero => exact absurd h (Nat.not_lt_zero _)
    | succ fuel => rfl
  | cons c others ih =>
    cases fuel with
    | zero => exact absurd h (Nat.not_lt_zero _)
    | succ fuel =>
      have hothers := ih (Nat.lt_of_succ_lt_succ h)
      rw [spelling_cons, List.append_assoc, (spelled_escape c).readChars?, hothers,
        Option.map_some]

/-! ## Canonical texts -/

theorem flatMap_quoteChars (cs : List Char) :
    (Json.quoteChars cs).flatMap asciiOnly = '"' :: (spelling cs ++ ['"']) := by
  have hquote : asciiOnly '"' = ['"'] := rfl
  rw [Json.quoteChars, List.flatMap_append, List.flatMap_cons, List.flatMap_assoc, ← spelling,
    List.flatMap_singleton, hquote, List.append_assoc, List.singleton_append]

theorem canonicalText_eq (reference : Reference) :
    reference.canonicalText = ['\x7b', '"', 'R', 'e', 'f', '"', ':', ' ', '"'] ++
      (spelling reference.name.toList ++ ['"', '\x7d']) := by
  unfold canonicalText
  simp [flatMap_quoteChars]

theorem printable_canonicalText (reference : Reference) :
    ∀ c ∈ reference.canonicalText, 0x20 ≤ c.toNat ∧ c.toNat ≤ 0x7e := by
  rw [canonicalText_eq, List.forall_mem_append, List.forall_mem_append]
  refine ⟨by simp, fun c hc => ?_, by simp⟩
  have hprintable := printable_spelling hc
  omega

/-- The key of the canonical text is spelled as a name would be, so that it is read in the same way
as the name. -/
theorem parse?_canonicalText (reference : Reference) :
    Json.parse? (String.ofList reference.canonicalText) =
      some (.object [("Ref", .string reference.name)]) := by
  have hlength := length_le_spelling reference.name.toList
  have hlong : reference.name.toList.length + 11 ≤ reference.canonicalText.length := by
    rw [canonicalText_eq]
    simp
    omega
  apply Json.parse?_of_value
  generalize reference.canonicalText.length = fuel at hlong
  obtain ⟨fuel, rfl⟩ : ∃ less, fuel = less + 1 := ⟨fuel - 1, by omega⟩
  have hkey : ∀ rest, Json.readString? (fuel + 1) ('"' :: 'R' :: 'e' :: 'f' :: '"' :: rest) =
      some ("Ref", rest) := by
    intro rest
    have hfuel : ['R', 'e', 'f'].length < fuel + 1 := by simp; omega
    exact readString?_spelling hfuel rest
  have hname : Json.readString? (fuel + 1) ('"' :: (spelling reference.name.toList ++
      ['"', '\x7d'])) = some (reference.name, ['\x7d']) := by
    rw [readString?_spelling (by omega), String.ofList_toList]
  rw [canonicalText_eq]
  exact Json.readValue?_of_members (Json.readMembers?_of_last
    (Json.readMember?_of_parts (hkey _) (Json.readValue?_of_string hname)))

end Reference

/-! ## Digests -/

namespace Digest.Sha1

/-- The messages differ, and their digests do not. -/
def Collide (x y : List UInt8) : Prop :=
  x ≠ y ∧ digest x = digest y

/-- Words of a fixed width are known by their digits. -/
theorem eq_of_flatMap_hexDigits_eq {words others : List UInt32}
    (hlength : words.length = others.length)
    (h : (words.flatMap fun word => Text.hexDigits 8 word.toNat) =
      others.flatMap fun word => Text.hexDigits 8 word.toNat) : words = others := by
  induction words generalizing others with
  | nil => exact (List.length_eq_zero_iff.1 hlength.symm).symm
  | cons word rest ih =>
    cases others with
    | nil => exact absurd hlength (by simp)
    | cons other rest' =>
      rw [List.flatMap_cons, List.flatMap_cons] at h
      obtain ⟨hdigits, hrest⟩ := List.append_inj h (by simp)
      have hword := Text.hexDigits_inj word.toNat_lt other.toNat_lt hdigits
      rw [UInt32.toNat_inj.1 hword, ih (Nat.succ.inj hlength) hrest]

theorem hexDigest_eq_iff {x y : List UInt8} : hexDigest x = hexDigest y ↔ digest x = digest y := by
  unfold hexDigest
  generalize digest x = s
  generalize digest y = t
  constructor
  · intro h
    have hwords : [s.a, s.b, s.c, s.d, s.e] = [t.a, t.b, t.c, t.d, t.e] :=
      eq_of_flatMap_hexDigits_eq rfl (String.ofList_injective h)
    cases s
    cases t
    cases hwords
    rfl
  · rintro rfl
    rfl

end Digest.Sha1

/-! ## Main result -/

/-- The canonical text of a reference is printable ASCII, and reading it gives the name back.  Its
bytes are what is digested, so two names have one token exactly if they are the same or if SHA-1
collides on the bytes of their texts. -/
theorem token_tells_name :
    (∀ reference : Reference, ∀ c ∈ reference.canonicalText, 0x20 ≤ c.toNat ∧ c.toNat ≤ 0x7e) ∧
    (∀ reference : Reference, Json.parse? (String.ofList reference.canonicalText) =
      some (.object [("Ref", .string reference.name)])) ∧
    Function.Injective Reference.canonicalText ∧
    (∀ reference : Reference, reference.token =
      ⟨Digest.Sha1.hexDigest (Text.utf8 (String.ofList reference.canonicalText))⟩) ∧
    ∀ a b : Reference, a.token = b.token ↔ a = b ∨
      Digest.Sha1.Collide (Text.utf8 (String.ofList a.canonicalText))
        (Text.utf8 (String.ofList b.canonicalText)) := by
  have hinjective : Function.Injective Reference.canonicalText := by
    intro a b h
    have ha := a.parse?_canonicalText
    rw [h, b.parse?_canonicalText] at ha
    cases a
    cases b
    simpa using ha.symm
  have hbytes : ∀ reference : Reference, reference.token =
      ⟨Digest.Sha1.hexDigest (Text.utf8 (String.ofList reference.canonicalText))⟩ := by
    intro reference
    have hascii : ∀ c ∈ reference.canonicalText, c.toNat ≤ 0x7f := fun c hc =>
      Nat.le_succ_of_le (reference.printable_canonicalText c hc).2
    rw [Text.utf8_ofList, Text.flatMap_utf8EncodeChar_of_ascii hascii, Reference.token]
  refine ⟨Reference.printable_canonicalText, Reference.parse?_canonicalText, hinjective, hbytes, ?_⟩
  intro a b
  rw [hbytes a, hbytes b, Token.mk.injEq, Digest.Sha1.hexDigest_eq_iff]
  constructor
  · intro hdigest
    by_cases heq : a = b
    · exact .inl heq
    · refine .inr ⟨fun hsame => heq ?_, hdigest⟩
      exact hinjective (String.ofList_injective (Text.utf8_injective hsame))
  · rintro (rfl | hcollide)
    · rfl
    · exact hcollide.2

/-- A quote is escaped by a letter, a character beyond the basic plane by two surrogates. -/
theorem canonicalText_grin :
    let grin : Reference := ⟨String.ofList ['"', '😀']⟩
    let text := "\x7b\"Ref\": \"\\\"\\ud83d\\ude00\"\x7d"
    String.ofList grin.canonicalText = text ∧ (0x20 ≤ 'u'.toNat ∧ 'u'.toNat ≤ 0x7e) ∧
      Json.parse? text = some (.object [("Ref", .string grin.name)]) := by
  intro grin text
  have hname : Reference.spelling grin.name.toList =
      ['\\', '"', '\\', 'u', 'd', '8', '3', 'd', '\\', 'u', 'd', 'e', '0', '0'] := by
    rw [String.toList_ofList]
    decide
  have htext : String.ofList grin.canonicalText = text := by
    rw [Reference.canonicalText_eq, hname]
    rfl
  have hletter : 'u' ∈ grin.canonicalText := by
    rw [Reference.canonicalText_eq, hname]
    decide
  refine ⟨htext, token_tells_name.1 grin 'u' hletter, ?_⟩
  rw [← htext]
  exact token_tells_name.2.1 grin

end TemplateConditions
