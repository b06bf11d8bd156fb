import IntPlatform.Library.Numerals
import IntPlatform.P4c.HopLimit

namespace IntPlatform.P4c.GeneratedHeaders

open Library.Numerals Library.Countdown
open HeaderTypes Parsing Ingress Effects Accounting HopLimit

/-- The format "{:02x}" of generate.py. -/
def hex02 (n : Nat) : List Char :=
  List.replicate (2 - (Nat.toDigits 16 n).length) '0' ++ Nat.toDigits 16 n

structure Rendered where
  maxHop8 : List Char
  maxHop16 : List Char
  hopMetaLen : List Char
  hopMetaLenUpper : List Char
  hopInfo : List Char
  instructionMaskComplet : List Char
deriving DecidableEq, Repr

def render (nodeNumber metaLen mask1 mask2 : Nat) : Rendered where
  maxHop8 := hex02 nodeNumber
  maxHop16 := hex02 nodeNumber
  hopMetaLen := Nat.toDigits 10 metaLen
  hopMetaLenUpper := ['0', 'x'] ++ hex02 metaLen ++ ['0', '0']
  hopInfo := ['0', 'x'] ++ hex02 metaLen ++ hex02 nodeNumber
  instructionMaskComplet := ['0', 'x', '0', '0'] ++ Nat.toDigits 16 mask1 ++ Nat.toDigits 16 mask2

def literal : List Char → Option Nat
  | '0' :: 'x' :: digits | '0' :: 'X' :: digits => numeral 16 digits
  | '0' :: 'd' :: digits | '0' :: 'D' :: digits => numeral 10 digits
  | '0' :: 'o' :: digits | '0' :: 'O' :: digits => numeral 8 digits
  | '0' :: 'b' :: digits | '0' :: 'B' :: digits => numeral 2 digits
  | digits => numeral 10 digits

def const (w : Nat) (text : List Char) : Option (BitVec w) :=
  (literal text).bind fun v => if v < 2 ^ w then some (BitVec.ofNat w v) else none

structure HopConstants where
  maxHop8 : BitVec 8
  maxHop16 : BitVec 16
  hopMetaLen : BitVec 8
  hopMetaLenUpper : BitVec 16
  hopInfo : BitVec 16
  instructionMaskComplet : BitVec 16
deriving DecidableEq, Repr

def HopConstants.toConstants (c : HopConstants) : Constants :=
  ⟨c.hopInfo, c.maxHop16, c.instructionMaskComplet⟩

def compile (r : Rendered) : Option HopConstants := do
  let maxHop8 ← const 8 r.maxHop8
  let maxHop16 ← const 16 r.maxHop16
  let hopMetaLen ← const 8 r.hopMetaLen
  let hopMetaLenUpper ← const 16 r.hopMetaLenUpper
  let hopInfo ← const 16 r.hopInfo
  let instructionMaskComplet ← const 16 r.instructionMaskComplet
  pure ⟨maxHop8, maxHop16, hopMetaLen, hopMetaLenUpper, hopInfo, instructionMaskComplet⟩

/-- The constants stand for n nodes: on a path that default_conf starts exactly
the first n nodes insert metadata. -/
structure HopsAgree (n : Nat) (c : HopConstants) : Prop where
  maxHop8 : c.maxHop8.toNat = n
  maxHop16 : c.maxHop16.toNat = n
  hopInfo : c.hopInfo - c.maxHop16 = c.hopMetaLen.setWidth 16 * 256
  inserts : ∀ (d : Datagram)
    (path : IntPath c.toConstants d.toSegments c.hopInfo c.instructionMaskComplet)
    visited hop rest frame out, path.hops = visited ++ hop :: rest →
    runPath visited d.frame = some frame → hop.forward frame = some out →
    if visited.length < n then
      Inserts hop c.instructionMaskComplet (behind d.toSegments visited frame)
        (out.drop (intEnd d.toSegments))
    else out.drop (intEnd d.toSegments) = behind d.toSegments visited frame

theorem distance_exhausted (c : HopConstants) :
    distance (exhausted c.toConstants) c.hopInfo = c.maxHop16.toNat := by
  rw [distance, exhausted, HopConstants.toConstants, sub_sub_cancel]

theorem agree_of_le (n : Nat) (hn : 1 ≤ n) (c : HopConstants) (hc : compile (render n 6 12 12) = some c)
    (hle : n ≤ 9) : HopsAgree n c := by
  have hall : ∀ n ≤ 9, 1 ≤ n → compile (render n 6 12 12) =
      some ⟨BitVec.ofNat 8 n, BitVec.ofNat 16 n, 6, 0x0600, 0x0600 + BitVec.ofNat 16 n, 0x00cc⟩ := by
    decide
  rw [hall n hle hn] at hc
  cases hc
  have h8 : (BitVec.ofNat 8 n).toNat = n := Nat.mod_eq_of_lt (by omega)
  have h16 : (BitVec.ofNat 16 n).toNat = n := Nat.mod_eq_of_lt (by omega)
  constructor
  case maxHop8 => exact h8
  case maxHop16 => exact h16
  case hopInfo =>
      have hupper : (0x0600 : BitVec 16) = (6 : BitVec 8).setWidth 16 * 256 := by decide
      exact (add_sub_cancel_right _ _).trans hupper
  case inserts =>
      intro d path visited hop rest frame out hsplit hrun hout
      have hv := visited_inserts d path visited rest hop frame out hsplit hrun hout
      rwa [distance_exhausted, h16] at hv

theorem literal_of_ne_zero (c : Char) (text : List Char) (hc : c ≠ '0') :
    literal (c :: text) = numeral 10 (c :: text) := by
  unfold literal
  split <;> simp_all

theorem literal_hex02 (n : Nat) (h : 16 ≤ n) : literal (hex02 n) = numeral 10 (Nat.toDigits 16 n) := by
  have hlen : 2 ≤ (Nat.toDigits 16 n).length := by
    have hpos := List.length_pos_iff.mpr (Nat.toDigits_ne_nil (n := n / 16) (b := 16))
    rw [Nat.toDigits_of_base_le (by decide) h, List.length_append, List.length_singleton]
    omega
  have hpad : 2 - (Nat.toDigits 16 n).length = 0 := by omega
  obtain ⟨c, text, ht, hc⟩ := toDigits_head 16 (by decide) (by decide) n (by omega)
  rw [hex02, hpad, List.replicate_zero, List.nil_append, ht, literal_of_ne_zero c text hc]

theorem le_of_agree (n : Nat) (c : HopConstants) (hc : compile (render n 6 12 12) = some c)
    (ha : c.maxHop16.toNat = n) : n ≤ 9 := by
  obtain ⟨maxHop8, h8, hc⟩ := Option.bind_eq_some_iff.mp hc
  obtain ⟨maxHop16, h16, hc⟩ := Option.bind_eq_some_iff.mp hc
  obtain ⟨v, hv, hfit⟩ := Option.bind_eq_some_iff.mp h16
  have hmax : c.maxHop16 = maxHop16 := by
    obtain ⟨_, -, hc⟩ := Option.bind_eq_some_iff.mp hc
    obtain ⟨_, -, hc⟩ := Option.bind_eq_some_iff.mp hc
    obtain ⟨_, -, hc⟩ := Option.bind_eq_some_iff.mp hc
    obtain ⟨_, -, hc⟩ := Option.bind_eq_some_iff.mp hc
    cases hc
    rfl
  by_contra hn
  by_cases hlt : n < 16
  · have hillegal : ∀ n < 16, 9 < n → literal (hex02 n) = none := by decide
    have hnone := hillegal n hlt (by omega)
    rw [render] at hv
    rw [hnone] at hv
    cases hv
  · change literal (hex02 n) = some v at hv
    rw [literal_hex02 n (by omega)] at hv
    split at hfit
    · next hw =>
      have hvn : v = n := by
        rw [← ha, hmax, ← Option.some.inj hfit]
        exact (Nat.mod_eq_of_lt hw).symm
      rw [hvn, numeral_eq_iff 10 16 (by decide) (by decide) (by decide)] at hv
      omega
    · cases hfit

/-- The generated constants agree exactly for numbers of one digit. -/
theorem hop_constants_agree_iff (n : Nat) (hn : 1 ≤ n) (c : HopConstants)
    (hc : compile (render n 6 12 12) = some c) : HopsAgree n c ↔ n ≤ 9 :=
  ⟨fun ha => le_of_agree n c hc ha.maxHop16, agree_of_le n hn c hc⟩

theorem hop_constants_agree_sample : HopsAgree 4 ⟨4, 4, 6, 0x0600, 0x0604, 0x00cc⟩ :=
  (hop_constants_agree_iff 4 (by decide) _ (by decide)).mpr (by decide)

theorem sixteen_hops_disagree :
    ∃ c, compile (render 16 6 12 12) = some c ∧ ¬ HopsAgree 16 c := by
  refine ⟨⟨10, 10, 6, 0x0600, 0x0610, 0x00cc⟩, by decide, ?_⟩
  intro ha
  exact absurd ha.maxHop16 (by decide)

end IntPlatform.P4c.GeneratedHeaders
