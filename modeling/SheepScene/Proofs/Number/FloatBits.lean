import SheepScene.Proofs.Number.ShortestDecimals

/-!
# Floats and their bits

The bits of a float are a sign, an exponent and a fraction, and what they are read as says which
they are unless it is no number (`FloatParts.ofBits_inj`). The bits that a float is made from are
those that it has, again unless it is no number (`Binary32.toBits_ofBits`): unpacking and packing
are inverse to each other for the two kinds of finite numbers, those with the least exponent and
those with a leading bit that is not written.
-/

set_option autoImplicit false

namespace SheepScene

namespace FloatParts

/-- The parts of 32 bits. -/
theorem ofBits_binary32 (bits : Nat) : ofBits 8 23 bits =
    if bits / 8388608 % 256 = 255 then
      if bits % 8388608 = 0 then .infinite (bits / 2147483648 % 2 == 1) else .notANumber
    else if bits / 8388608 % 256 = 0 then
      .finite (bits / 2147483648 % 2 == 1) (bits % 8388608) (-149)
    else
      .finite (bits / 2147483648 % 2 == 1) (bits % 8388608 + 8388608)
        ((bits / 8388608 % 256 : Nat) - 150) :=
  rfl

/-- The parts of a float that is a number determine its bits. -/
theorem ofBits_inj {a b : Nat} (ha : a < 2 ^ 32) (hb : b < 2 ^ 32)
    (h : ofBits 8 23 a = ofBits 8 23 b) (hn : ofBits 8 23 a ≠ .notANumber) : a = b := by
  have sign : (a / 2147483648 % 2 == 1) = (b / 2147483648 % 2 == 1) →
      a / 2147483648 = b / 2147483648 := by
    intro h
    have := Bool.eq_iff_iff.1 h
    simp only [beq_iff_eq] at this
    omega
  rw [ofBits_binary32] at hn
  rw [ofBits_binary32, ofBits_binary32] at h
  split at h
  · split at h
    · split at h
      · split at h
        · have := sign (FloatParts.infinite.inj h)
          omega
        · cases h
      · split at h <;> cases h
    · rename_i hexponent hfraction
      rw [if_pos hexponent, if_neg hfraction] at hn
      exact absurd rfl hn
  · split at h <;> split at h
    all_goals try split at h
    all_goals try cases h
    -- Both are finite.
    all_goals
      obtain ⟨hsign, hfraction, hexponent⟩ := FloatParts.finite.inj h
      have := sign hsign
      omega

/-- A finite float is zero or has a proper significand. -/
theorem proper_of_ofBits {bits : Nat} {negative : Bool} {significand : Nat} {exponent : Int}
    (h : ofBits 8 23 bits = .finite negative significand exponent) :
    significand = 0 ∧ exponent = -149 ∨ Decimal.Proper significand exponent := by
  rw [ofBits_binary32] at h
  split at h
  · split at h <;> cases h
  · split at h <;> cases h
    · rcases Nat.eq_zero_or_pos (bits % 8388608) with zero | positive
      · exact .inl ⟨zero, rfl⟩
      · exact .inr ⟨positive, by omega, by omega, by omega⟩
    · exact .inr ⟨by omega, by omega, by omega, by omega⟩

end FloatParts

namespace Binary32

/-- A float is its bit pattern. -/
theorem toBits_inj {x y : Float32} (h : x.toBits = y.toBits) : x = y := by
  obtain ⟨⟨a, ha⟩⟩ := x
  obtain ⟨⟨b, hb⟩⟩ := y
  cases (h : a = b)
  rfl

/-- Floats that are numbers have their own parts each. -/
theorem read_inj {x y : Float32} (h : read x = read y) (hn : read x ≠ .notANumber) : x = y :=
  toBits_inj (UInt32.toNat_inj.1
    (FloatParts.ofBits_inj x.toBits.toNat_lt y.toBits.toNat_lt h hn))

section Packing

open Float.Model

variable {b : BitVec Format.binary32.numBits}

/-- Bits are put together again from their sign, their exponent and their fraction. -/
theorem packComponents_eq {exponent : BitVec 8} {fraction : BitVec 23}
    (hexponent : UnpackedFloat.unpackExponent b = exponent)
    (hfraction : UnpackedFloat.unpackMantissa b = fraction) :
    UnpackedFloat.packComponents .binary32
      (UnpackedFloat.Sign.ofBitVec (UnpackedFloat.unpackSign b)) exponent fraction = b := by
  have sign : ∀ v : BitVec 1, (UnpackedFloat.Sign.ofBitVec v).toBitVec = v := by decide
  subst hexponent hfraction
  have upper : BitVec.extractLsb' 31 1 b ++ BitVec.extractLsb' 23 8 b = BitVec.extractLsb' 23 9 b :=
    BitVec.extractLsb'_append_extractLsb'_eq_extractLsb' rfl
  have whole : BitVec.extractLsb' 23 9 b ++ BitVec.extractLsb' 0 23 b = BitVec.extractLsb' 0 32 b :=
    BitVec.extractLsb'_append_extractLsb'_eq_extractLsb' rfl
  rw [UnpackedFloat.packComponents, sign]
  calc (BitVec.extractLsb' 31 1 b ++ BitVec.extractLsb' 23 8 b) ++ BitVec.extractLsb' 0 23 b
    _ = BitVec.extractLsb' 0 32 b := by rw [upper, whole]
    _ = b := BitVec.extractLsb'_eq_self

/-- A significand below the leading digit is packed with the least exponent. -/
theorem pack_subnormal {sign : UnpackedFloat.Sign} {significand : Nat} {exponent : Int}
    {positive : 0 < significand} (hlt : significand < 2 ^ 23)
    (hexponent : (exponent + Format.binary32.exponentBias + (23 : Nat)).toNat = 1) :
    UnpackedFloat.pack .binary32 (.finite sign significand exponent positive)
      = UnpackedFloat.packComponents .binary32 sign 0#8 (BitVec.ofNat 23 significand) := by
  have digits : significand.log2 + 1 ≠ Format.binary32.mantissaBits := by
    have low := (Nat.log2_lt positive.ne').2 hlt
    change significand.log2 + 1 ≠ 24
    omega
  unfold UnpackedFloat.pack
  simp only [hexponent]
  rw [if_neg (by decide), if_neg digits]

/-- A significand with a leading digit is packed without it. -/
theorem pack_normal (field : Nat) {sign : UnpackedFloat.Sign} {significand : Nat} {exponent : Int}
    {positive : 0 < significand} (hle : 2 ^ 23 ≤ significand) (hlt : significand < 2 ^ 24)
    (hfield : field + 1 < 2 ^ 8)
    (hexponent : (exponent + Format.binary32.exponentBias + (23 : Nat)).toNat = field) :
    UnpackedFloat.pack .binary32 (.finite sign significand exponent positive)
      = UnpackedFloat.packComponents .binary32 sign (BitVec.ofNat 8 field)
        (BitVec.ofNat 23 significand) := by
  have digits : significand.log2 + 1 = Format.binary32.mantissaBits := by
    have low := (Nat.le_log2 positive.ne').2 hle
    have high := (Nat.log2_lt positive.ne').2 hlt
    change significand.log2 + 1 = 24
    omega
  unfold UnpackedFloat.pack
  simp only [hexponent]
  rw [if_neg (Nat.not_le.2 hfield), if_pos digits]

/-- The bits of a float that is a number are what its parts are packed to. -/
theorem pack_unpack (hn : UnpackedFloat.unpack .binary32 b ≠ .notANumber) :
    UnpackedFloat.pack .binary32 (UnpackedFloat.unpack .binary32 b) = b := by
  have exponentLt : (UnpackedFloat.unpackExponent b).toNat < 2 ^ 8 := BitVec.isLt _
  have fractionLt : (UnpackedFloat.unpackMantissa b).toNat < 2 ^ 23 := BitVec.isLt _
  unfold UnpackedFloat.unpack at hn ⊢
  dsimp only at hn ⊢
  by_cases top : UnpackedFloat.unpackExponent b = -1#8
  · rw [if_pos top] at hn ⊢
    by_cases zero : UnpackedFloat.unpackMantissa b = 0#23
    · rw [if_pos zero]
      exact packComponents_eq top zero
    · rw [if_neg zero] at hn
      exact absurd rfl hn
  rw [if_neg top]
  by_cases bottom : UnpackedFloat.unpackExponent b = 0#8
  · rw [if_pos bottom]
    by_cases zero : UnpackedFloat.unpackMantissa b = 0#23
    · rw [dif_pos zero]
      exact packComponents_eq bottom zero
    · rw [dif_neg zero, pack_subnormal fractionLt (by rw [bottom]; rfl)]
      exact packComponents_eq bottom (by simp)
  · rw [if_neg bottom]
    have leading : (1#1 ++ UnpackedFloat.unpackMantissa b).toNat
        = 2 ^ 23 + (UnpackedFloat.unpackMantissa b).toNat := by
      rw [BitVec.toNat_append, ← Nat.shiftLeft_add_eq_or_of_lt fractionLt]
      rfl
    have field : (UnpackedFloat.unpackExponent b).toNat ≠ 255 := fun h =>
      top (BitVec.toNat_inj.1 h)
    rw [pack_normal (UnpackedFloat.unpackExponent b).toNat (by omega) (by omega) (by omega)
      (by simp only [Format.exponentBias]; omega)]
    refine packComponents_eq (by simp) (BitVec.eq_of_toNat_eq ?_)
    rw [BitVec.toNat_ofNat, leading, Nat.add_mod_left, Nat.mod_eq_of_lt fractionLt]

end Packing

/-- A float that is a number has the bits that it is made of. -/
theorem toBits_ofBits {bits : UInt32} (hn : read (Float32.ofBits bits) ≠ .notANumber) :
    (Float32.ofBits bits).toBits = bits := by
  have packed : (Float32.ofBits bits).toBits = UInt32.ofBitVec
      (Float.Model.UnpackedFloat.pack .binary32
        (Float.Model.UnpackedFloat.unpack .binary32 bits.toBitVec)) :=
    rfl
  by_cases number : Float.Model.UnpackedFloat.unpack .binary32 bits.toBitVec = .notANumber
  · rw [number] at packed
    unfold read at hn
    rw [packed] at hn
    exact absurd rfl hn
  · rw [packed, pack_unpack number]

/-- Different bits make different floats, unless one is no number. -/
theorem ofBits_inj {a b : UInt32} (ha : read (Float32.ofBits a) ≠ .notANumber)
    (h : Float32.ofBits a = Float32.ofBits b) : a = b := by
  rw [← toBits_ofBits ha, h, toBits_ofBits (h ▸ ha)]

end Binary32

end SheepScene
