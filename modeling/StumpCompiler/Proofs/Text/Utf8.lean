import Mathlib
import StumpCompiler.Text.Utf8

/-! The UTF-8 bytes of a text are decoded to that text, and no other bytes are. The fault in other
bytes does not depend on what stands in front of them, but for its place. -/

namespace StumpCompiler.Text.Utf8

theorem toNat_toUInt8 {n : ℕ} (h : n < 256) : n.toUInt8.toNat = n := by
  simp [Nat.toUInt8, Nat.mod_eq_of_lt h]

/-- Code points are below 0x110000 and leave out the surrogates. -/
theorem toNat_ranges (c : Char) : c.toNat < 0xD800 ∨ 0xDFFF < c.toNat ∧ c.toNat < 0x110000 :=
  c.valid

/-! First bytes. -/

theorem lead?_two {a : UInt8} (least : 0xC2 ≤ a.toNat) (greatest : a.toNat ≤ 0xDF) :
    lead? a = some ⟨1, 0x80, 0xBF⟩ := by
  rw [lead?, if_pos]
  simp only [UInt8.le_iff_toNat_le, Bool.and_eq_true, decide_eq_true_eq]
  exact ⟨least, greatest⟩

/-- No byte above those that lead two bytes. -/
theorem not_leads_two {a : UInt8} (least : 0xE0 ≤ a.toNat) : ¬(0xC2 ≤ a && a ≤ 0xDF) := by
  simp only [UInt8.le_iff_toNat_le, Bool.and_eq_true, decide_eq_true_eq, not_and]
  exact fun _ => Nat.not_le.mpr (Nat.lt_of_lt_of_le (by decide) least)

theorem lead?_three {a : UInt8} (least : 0xE0 ≤ a.toNat) (greatest : a.toNat ≤ 0xEF) :
    ∃ l g, lead? a = some ⟨2, l, g⟩ ∧ l.toNat = (if a.toNat = 0xE0 then 0xA0 else 0x80) ∧
      g.toNat = (if a.toNat = 0xED then 0x9F else 0xBF) := by
  by_cases lowest : a = 0xE0
  · subst lowest
    exact ⟨_, _, rfl, rfl, rfl⟩
  by_cases surrogates : a = 0xED
  · subst surrogates
    exact ⟨_, _, rfl, rfl, rfl⟩
  have not_lowest : a.toNat ≠ 0xE0 := fun same => lowest (UInt8.toNat_inj.mp same)
  have not_surrogates : a.toNat ≠ 0xED := fun same => surrogates (UInt8.toNat_inj.mp same)
  have inside : 0xE1 ≤ a && a ≤ 0xEF := by
    simp only [UInt8.le_iff_toNat_le, Bool.and_eq_true, decide_eq_true_eq]
    exact ⟨Nat.lt_of_le_of_ne least not_lowest.symm, greatest⟩
  refine ⟨0x80, 0xBF, ?_, ?_, ?_⟩
  · rw [lead?, if_neg (not_leads_two least)]
    simp [lowest, surrogates, inside]
  · rw [if_neg not_lowest]
    rfl
  · rw [if_neg not_surrogates]
    rfl

theorem lead?_four {a : UInt8} (least : 0xF0 ≤ a.toNat) (greatest : a.toNat ≤ 0xF4) :
    ∃ l g, lead? a = some ⟨3, l, g⟩ ∧ l.toNat = (if a.toNat = 0xF0 then 0x90 else 0x80) ∧
      g.toNat = (if a.toNat = 0xF4 then 0x8F else 0xBF) := by
  by_cases lowest : a = 0xF0
  · subst lowest
    exact ⟨_, _, rfl, rfl, rfl⟩
  by_cases highest : a = 0xF4
  · subst highest
    exact ⟨_, _, rfl, rfl, rfl⟩
  have not_lowest : a.toNat ≠ 0xF0 := fun same => lowest (UInt8.toNat_inj.mp same)
  have not_highest : a.toNat ≠ 0xF4 := fun same => highest (UInt8.toNat_inj.mp same)
  have inside : 0xF1 ≤ a && a ≤ 0xF3 := by
    simp only [UInt8.le_iff_toNat_le, Bool.and_eq_true, decide_eq_true_eq]
    exact ⟨Nat.lt_of_le_of_ne least not_lowest.symm, Nat.le_of_lt_succ <|
      Nat.lt_of_le_of_ne greatest not_highest⟩
  have not_three : ¬(a = 0xE0) ∧ ¬(a = 0xED) ∧ ¬(a ≤ 0xEF) := by
    simp only [← UInt8.toNat_inj, UInt8.le_iff_toNat_le]
    refine ⟨?_, ?_, ?_⟩ <;> simp <;> omega
  obtain ⟨not_e0, not_ed, above⟩ := not_three
  refine ⟨0x80, 0xBF, ?_, ?_, ?_⟩
  · rw [lead?, if_neg (not_leads_two (by omega))]
    simp [not_e0, not_ed, above, lowest, highest, inside]
  · rw [if_neg not_lowest]
    rfl
  · rw [if_neg not_highest]
    rfl

/-! One character. -/

section

variable {a b c d : UInt8} {lead : Lead} {i : ℕ} {read : List Char} {rest : List UInt8}

theorem not_lt_of_lead (h : 0x80 ≤ a.toNat) : ¬a < 0x80 := by
  rw [UInt8.lt_iff_toNat_lt]
  exact Nat.not_lt.mpr h

theorem decodeFrom_one (ascii : a.toNat < 0x80) :
    decodeFrom i read (a :: rest) = decodeFrom (i + 1) (Char.ofNat a.toNat :: read) rest := by
  rw [decodeFrom, if_pos (UInt8.lt_iff_toNat_lt.mpr ascii)]

theorem decodeFrom_two (high : 0x80 ≤ a.toNat) (leads : lead? a = some lead)
    (following : lead.following = 1) (second : ¬(b < lead.least || lead.greatest < b)) :
    decodeFrom i read (a :: b :: rest) = decodeFrom (i + 2) (joined2 a b :: read) rest := by
  rw [decodeFrom, if_neg (not_lt_of_lead high)]
  simp only [leads]
  rw [if_neg second, if_pos (by simp [following])]

theorem decodeFrom_three (high : 0x80 ≤ a.toNat) (leads : lead? a = some lead)
    (following : lead.following = 2) (second : ¬(b < lead.least || lead.greatest < b))
    (third : isTail c) :
    decodeFrom i read (a :: b :: c :: rest) = decodeFrom (i + 3) (joined3 a b c :: read) rest := by
  rw [decodeFrom, if_neg (not_lt_of_lead high)]
  simp only [leads]
  rw [if_neg second, if_neg (by simp [following]), if_neg (by simp [third]),
    if_pos (by simp [following])]

theorem decodeFrom_four (high : 0x80 ≤ a.toNat) (leads : lead? a = some lead)
    (following : lead.following = 3) (second : ¬(b < lead.least || lead.greatest < b))
    (third : isTail c) (fourth : isTail d) :
    decodeFrom i read (a :: b :: c :: d :: rest) =
      decodeFrom (i + 4) (joined4 a b c d :: read) rest := by
  rw [decodeFrom, if_neg (not_lt_of_lead high)]
  simp only [leads]
  rw [if_neg second, if_neg (by simp [following]), if_neg (by simp [third]),
    if_neg (by simp [following]), if_neg (by simp [fourth])]

end

/-- The bytes are decoded to the character, whatever stands around them. -/
def Decodes (bytes : List UInt8) (c : Char) : Prop :=
  ∀ i read rest,
    decodeFrom i read (bytes ++ rest) = decodeFrom (i + bytes.length) (c :: read) rest

section

variable {n : ℕ}

theorem toNat_tail (n : ℕ) : (0x80 + n % 64).toUInt8.toNat = 0x80 + n % 64 :=
  toNat_toUInt8 (by omega)

theorem isTail_tail (n : ℕ) : isTail (0x80 + n % 64).toUInt8 := by
  have value := toNat_tail n
  simp only [isTail, UInt8.le_iff_toNat_le, Bool.and_eq_true, decide_eq_true_eq, value]
  simp
  omega

theorem decodes_one (below : n < 0x80) : Decodes [n.toUInt8] (Char.ofNat n) := by
  intro i read rest
  have value : n.toUInt8.toNat = n := toNat_toUInt8 (by omega)
  rw [List.singleton_append, decodeFrom_one (by omega), value]
  rfl

theorem decodes_two (least : 0x80 ≤ n) (below : n < 0x800) :
    Decodes [(0xC0 + n / 64).toUInt8, (0x80 + n % 64).toUInt8] (Char.ofNat n) := by
  intro i read rest
  have first : (0xC0 + n / 64).toUInt8.toNat = 0xC0 + n / 64 := toNat_toUInt8 (by omega)
  have second := toNat_tail n
  have joined : joined2 (0xC0 + n / 64).toUInt8 (0x80 + n % 64).toUInt8 = Char.ofNat n := by
    rw [joined2, first, second]
    exact congrArg Char.ofNat (by omega)
  have leads := lead?_two (a := (0xC0 + n / 64).toUInt8) (by omega) (by omega)
  have fits : ¬((0x80 + n % 64).toUInt8 < 0x80 || 0xBF < (0x80 + n % 64).toUInt8) := by
    simp only [UInt8.lt_iff_toNat_lt, Bool.or_eq_true, decide_eq_true_eq, second]
    simp
    omega
  exact (decodeFrom_two (by omega) leads rfl fits).trans (by rw [joined]; rfl)

theorem decodes_three (least : 0x800 ≤ n) (below : n < 0x10000) (char : n < 0xD800 ∨ 0xDFFF < n) :
    Decodes [(0xE0 + n / 4096).toUInt8, (0x80 + n / 64 % 64).toUInt8, (0x80 + n % 64).toUInt8]
      (Char.ofNat n) := by
  intro i read rest
  have first : (0xE0 + n / 4096).toUInt8.toNat = 0xE0 + n / 4096 := toNat_toUInt8 (by omega)
  have second := toNat_tail (n / 64)
  have third := toNat_tail n
  have joined : joined3 (0xE0 + n / 4096).toUInt8 (0x80 + n / 64 % 64).toUInt8
      (0x80 + n % 64).toUInt8 = Char.ofNat n := by
    rw [joined3, first, second, third]
    exact congrArg Char.ofNat (by omega)
  obtain ⟨l, g, leads, l_eq, g_eq⟩ := lead?_three (a := (0xE0 + n / 4096).toUInt8) (by omega)
    (by omega)
  have fits : ¬((0x80 + n / 64 % 64).toUInt8 < l || g < (0x80 + n / 64 % 64).toUInt8) := by
    simp only [UInt8.lt_iff_toNat_lt, Bool.or_eq_true, decide_eq_true_eq, l_eq, g_eq, first, second]
    split_ifs <;> omega
  exact (decodeFrom_three (by omega) leads rfl fits (isTail_tail n)).trans (by rw [joined]; rfl)

theorem decodes_four (least : 0x10000 ≤ n) (below : n < 0x110000) :
    Decodes [(0xF0 + n / 262144).toUInt8, (0x80 + n / 4096 % 64).toUInt8,
      (0x80 + n / 64 % 64).toUInt8, (0x80 + n % 64).toUInt8] (Char.ofNat n) := by
  intro i read rest
  have first : (0xF0 + n / 262144).toUInt8.toNat = 0xF0 + n / 262144 := toNat_toUInt8 (by omega)
  have second := toNat_tail (n / 4096)
  have third := toNat_tail (n / 64)
  have fourth := toNat_tail n
  have joined : joined4 (0xF0 + n / 262144).toUInt8 (0x80 + n / 4096 % 64).toUInt8
      (0x80 + n / 64 % 64).toUInt8 (0x80 + n % 64).toUInt8 = Char.ofNat n := by
    rw [joined4, first, second, third, fourth]
    exact congrArg Char.ofNat (by omega)
  obtain ⟨l, g, leads, l_eq, g_eq⟩ := lead?_four (a := (0xF0 + n / 262144).toUInt8) (by omega)
    (by omega)
  have fits : ¬((0x80 + n / 4096 % 64).toUInt8 < l || g < (0x80 + n / 4096 % 64).toUInt8) := by
    simp only [UInt8.lt_iff_toNat_lt, Bool.or_eq_true, decide_eq_true_eq, l_eq, g_eq, first, second]
    split_ifs <;> omega
  exact (decodeFrom_four (by omega) leads rfl fits (isTail_tail (n / 64)) (isTail_tail n)).trans
    (by rw [joined]; rfl)

end

theorem decodes_encodeChar (c : Char) : Decodes (encodeChar c) c := by
  have ranges := toNat_ranges c
  have back : Char.ofNat c.toNat = c := Char.ofNat_toNat c
  unfold encodeChar
  generalize c.toNat = n at *
  subst back
  simp only
  split_ifs with one two three
  · exact decodes_one one
  · exact decodes_two (by omega) two
  · exact decodes_three (by omega) three (by omega)
  · exact decodes_four (by omega) (by omega)

/-! The other way round: bytes that are decoded to a character are those of the character. -/

/-- What a first byte promises, in numbers. -/
theorem lead?_eq_some {a : UInt8} {lead : Lead} (h : lead? a = some lead) :
    (0xC2 ≤ a.toNat ∧ a.toNat ≤ 0xDF ∧ lead.following = 1 ∧ lead.least.toNat = 0x80 ∧
      lead.greatest.toNat = 0xBF) ∨
    (0xE0 ≤ a.toNat ∧ a.toNat ≤ 0xEF ∧ lead.following = 2 ∧
      lead.least.toNat = (if a.toNat = 0xE0 then 0xA0 else 0x80) ∧
      lead.greatest.toNat = (if a.toNat = 0xED then 0x9F else 0xBF)) ∨
    (0xF0 ≤ a.toNat ∧ a.toNat ≤ 0xF4 ∧ lead.following = 3 ∧
      lead.least.toNat = (if a.toNat = 0xF0 then 0x90 else 0x80) ∧
      lead.greatest.toNat = (if a.toNat = 0xF4 then 0x8F else 0xBF)) := by
  unfold lead? at h
  simp only [UInt8.le_iff_toNat_le, Bool.and_eq_true, decide_eq_true_eq, beq_iff_eq,
    ← UInt8.toNat_inj] at h
  split_ifs at h <;> obtain rfl := Option.some.inj h <;> simp_all <;> omega

section

variable {a b c d : UInt8} {n : ℕ}

theorem toNat_ofNat (char : n < 0xD800 ∨ 0xDFFF < n ∧ n < 0x110000) :
    (Char.ofNat n).toNat = n := by
  rw [Char.toNat_ofNat, if_pos char]

theorem toUInt8_eq (same : n = a.toNat) : n.toUInt8 = a := by
  rw [same, Nat.toUInt8, UInt8.ofNat_toNat]

theorem toNat_of_isTail (h : isTail b) : 0x80 ≤ b.toNat ∧ b.toNat ≤ 0xBF := by
  simpa [isTail, UInt8.le_iff_toNat_le] using h

theorem encodeChar_one (ascii : a.toNat < 0x80) : encodeChar (Char.ofNat a.toNat) = [a] := by
  rw [encodeChar, toNat_ofNat (by omega), if_pos ascii, toUInt8_eq rfl]

theorem encodeChar_joined2 (least : 0xC2 ≤ a.toNat) (greatest : a.toNat ≤ 0xDF)
    (second : 0x80 ≤ b.toNat ∧ b.toNat ≤ 0xBF) : encodeChar (joined2 a b) = [a, b] := by
  rw [encodeChar, joined2, toNat_ofNat (by omega), if_neg (by omega), if_pos (by omega),
    toUInt8_eq (a := a) (by omega), toUInt8_eq (a := b) (by omega)]

theorem encodeChar_joined3 (least : 0xE0 ≤ a.toNat) (greatest : a.toNat ≤ 0xEF)
    (second : (if a.toNat = 0xE0 then 0xA0 else 0x80) ≤ b.toNat ∧
      b.toNat ≤ (if a.toNat = 0xED then 0x9F else 0xBF))
    (third : 0x80 ≤ c.toNat ∧ c.toNat ≤ 0xBF) : encodeChar (joined3 a b c) = [a, b, c] := by
  have ranges : 0x80 ≤ b.toNat ∧ b.toNat ≤ 0xBF ∧ (a.toNat = 0xE0 → 0xA0 ≤ b.toNat) ∧
      (a.toNat = 0xED → b.toNat ≤ 0x9F) := by
    split_ifs at second <;> omega
  rw [encodeChar, joined3, toNat_ofNat (by omega), if_neg (by omega), if_neg (by omega),
    if_pos (by omega), toUInt8_eq (a := a) (by omega), toUInt8_eq (a := b) (by omega),
    toUInt8_eq (a := c) (by omega)]

theorem encodeChar_joined4 (least : 0xF0 ≤ a.toNat) (greatest : a.toNat ≤ 0xF4)
    (second : (if a.toNat = 0xF0 then 0x90 else 0x80) ≤ b.toNat ∧
      b.toNat ≤ (if a.toNat = 0xF4 then 0x8F else 0xBF))
    (third : 0x80 ≤ c.toNat ∧ c.toNat ≤ 0xBF) (fourth : 0x80 ≤ d.toNat ∧ d.toNat ≤ 0xBF) :
    encodeChar (joined4 a b c d) = [a, b, c, d] := by
  have ranges : 0x80 ≤ b.toNat ∧ b.toNat ≤ 0xBF ∧ (a.toNat = 0xF0 → 0x90 ≤ b.toNat) ∧
      (a.toNat = 0xF4 → b.toNat ≤ 0x8F) := by
    split_ifs at second <;> omega
  rw [encodeChar, joined4, toNat_ofNat (by omega), if_neg (by omega), if_neg (by omega),
    if_neg (by omega), toUInt8_eq (a := a) (by omega), toUInt8_eq (a := b) (by omega),
    toUInt8_eq (a := c) (by omega), toUInt8_eq (a := d) (by omega)]

end

theorem encodeChar_ne_nil (c : Char) : encodeChar c ≠ [] := by
  unfold encodeChar
  simp only
  split_ifs <;> simp

/-- The same fault with `n` more bytes in front. -/
def Fault.behind (n : ℕ) : Fault → Fault
  | .invalid length start => .invalid length (n + start)
  | .incomplete start => .incomplete (n + start)

theorem Fault.behind_behind (m n : ℕ) (fault : Fault) :
    (fault.behind n).behind m = fault.behind (m + n) := by
  cases fault <;> simp [behind, Nat.add_assoc]

/-- There is a fault in the bytes, whatever stands in front of them. -/
def IsFaulty (bytes : List UInt8) (fault : Fault) : Prop :=
  ∀ i read, decodeFrom i read bytes = .error (fault.behind i)

/-- Bytes start with those of a character, or there is a fault at their start. -/
theorem exists_char_or_isFaulty (a : UInt8) (rest : List UInt8) :
    (∃ c more, a :: rest = encodeChar c ++ more) ∨ ∃ fault, IsFaulty (a :: rest) fault := by
  by_cases ascii : a < 0x80
  · rw [UInt8.lt_iff_toNat_lt] at ascii
    exact .inl ⟨_, rest, by rw [encodeChar_one ascii]; rfl⟩
  cases leads : lead? a with
  | none =>
    exact .inr ⟨.invalid 1 0, fun i read => by simp [decodeFrom, ascii, leads, Fault.behind]⟩
  | some lead =>
    rcases rest with _ | ⟨b, rest⟩
    · exact .inr ⟨.incomplete 0, fun i read => by simp [decodeFrom, ascii, leads, Fault.behind]⟩
    by_cases second : b < lead.least || lead.greatest < b
    · refine .inr ⟨.invalid 1 0, fun i read => ?_⟩
      simp [decodeFrom, ascii, leads, second, Fault.behind]
    have inside : lead.least.toNat ≤ b.toNat ∧ b.toNat ≤ lead.greatest.toNat := by
      simpa [UInt8.lt_iff_toNat_lt] using second
    obtain ⟨least, greatest, two, low, high⟩ | more := lead?_eq_some leads
    · rw [low, high] at inside
      exact .inl ⟨_, rest, by rw [encodeChar_joined2 least greatest inside]; rfl⟩
    have not_two : lead.following ≠ 1 := by omega
    rcases rest with _ | ⟨c, rest⟩
    · refine .inr ⟨.incomplete 0, fun i read => ?_⟩
      simp [decodeFrom, ascii, leads, second, not_two, Fault.behind]
    by_cases third : isTail c
    swap
    · refine .inr ⟨.invalid 2 0, fun i read => ?_⟩
      simp [decodeFrom, ascii, leads, second, not_two, third, Fault.behind]
    obtain ⟨least, greatest, three, low, high⟩ | ⟨least, greatest, four, low, high⟩ := more
    · rw [low, high] at inside
      have char := encodeChar_joined3 least greatest inside (toNat_of_isTail third)
      exact .inl ⟨_, rest, by rw [char]; rfl⟩
    rcases rest with _ | ⟨d, rest⟩
    · refine .inr ⟨.incomplete 0, fun i read => ?_⟩
      simp [decodeFrom, ascii, leads, second, third, four, Fault.behind]
    by_cases fourth : isTail d
    swap
    · refine .inr ⟨.invalid 3 0, fun i read => ?_⟩
      simp [decodeFrom, ascii, leads, second, third, fourth, four, Fault.behind]
    rw [low, high] at inside
    have char := encodeChar_joined4 least greatest inside (toNat_of_isTail third)
      (toNat_of_isTail fourth)
    exact .inl ⟨_, rest, by rw [char]; rfl⟩

/-! Texts. -/

theorem encode_append (cs ds : List Char) : encode (cs ++ ds) = encode cs ++ encode ds :=
  List.flatMap_append

theorem decodeFrom_encode_append (cs : List Char) (bytes : List UInt8) (i : ℕ)
    (read : List Char) :
    decodeFrom i read (encode cs ++ bytes) =
      decodeFrom (i + (encode cs).length) (cs.reverse ++ read) bytes := by
  induction cs generalizing i read with
  | nil => rfl
  | cons c cs ih =>
    have parts : encode (c :: cs) = encodeChar c ++ encode cs := rfl
    rw [parts, List.append_assoc, decodes_encodeChar, ih, List.length_append, Nat.add_assoc]
    simp

/-- ASCII characters are encoded one by one as they are. -/
theorem encode_ascii {cs : List Char} (h : ∀ c ∈ cs, c.toNat < 128) :
    encode cs = cs.map fun c => c.toNat.toUInt8 := by
  induction cs with
  | nil => rfl
  | cons c cs ih =>
    rw [List.forall_mem_cons] at h
    have first : encodeChar c = [c.toNat.toUInt8] := if_pos h.1
    rw [List.map_cons, ← ih h.2, encode, List.flatMap_cons, first]
    rfl

theorem decode_encode (cs : List Char) : decode (encode cs) = .ok cs := by
  have run := decodeFrom_encode_append cs [] 0 []
  rw [List.append_nil, List.append_nil] at run
  rw [decode, run, decodeFrom, List.reverse_reverse]

/-- Bytes are those of a text, or there is a fault in them. -/
theorem exists_text_or_isFaulty (bytes : List UInt8) :
    (∃ cs, bytes = encode cs) ∨ ∃ fault, IsFaulty bytes fault := by
  induction length : bytes.length using Nat.strong_induction_on generalizing bytes with
  | _ n ih =>
    cases bytes with
    | nil => exact .inl ⟨[], rfl⟩
    | cons a rest =>
      obtain ⟨c, more, parts⟩ | faulty := exists_char_or_isFaulty a rest
      · rw [parts] at length ⊢
        have shorter : more.length < n := by
          have := List.length_pos_iff.mpr (encodeChar_ne_nil c)
          rw [List.length_append] at length
          omega
        obtain ⟨cs, rfl⟩ | ⟨fault, faulty⟩ := ih _ shorter more rfl
        · exact .inl ⟨c :: cs, rfl⟩
        · refine .inr ⟨fault.behind (encodeChar c).length, fun i read => ?_⟩
          rw [decodes_encodeChar, faulty, Fault.behind_behind]
      · exact .inr faulty

/-- Only the bytes of a text are decoded to it. -/
theorem decode_eq_ok_iff {bytes : List UInt8} {cs : List Char} :
    decode bytes = .ok cs ↔ bytes = encode cs := by
  constructor
  · intro h
    obtain ⟨ds, rfl⟩ | ⟨fault, faulty⟩ := exists_text_or_isFaulty bytes
    · rw [decode_encode, Except.ok.injEq] at h
      rw [h]
    · rw [decode, faulty] at h
      contradiction
  · rintro rfl
    exact decode_encode cs

/-- What bytes are decoded to behind those of a text. -/
theorem decode_encode_append (cs : List Char) (bytes : List UInt8) :
    decode (encode cs ++ bytes) =
      ((decode bytes).mapError (Fault.behind (encode cs).length)).map (cs ++ ·) := by
  obtain ⟨ds, rfl⟩ | ⟨fault, faulty⟩ := exists_text_or_isFaulty bytes
  · rw [← encode_append, decode_encode, decode_encode]
    rfl
  · rw [decode, decode, decodeFrom_encode_append, faulty, faulty]
    simp [Except.mapError, Except.map, Fault.behind_behind]

end StumpCompiler.Text.Utf8
