import IntPlatform.P4c.Effects
import Mathlib.Tactic.IntervalCases

namespace IntPlatform.P4c.Accounting

open Library.Formats HeaderTypes Parsing Ingress Deparser NodeFields Effects

def bit : Field → Nat
  | .switchId => 7
  | .portIds => 6
  | .hopLatency => 5
  | .qOccupancy => 4
  | .ingressTstamp => 3
  | .egressTstamp => 2
  | .level2PortIds => 1
  | .egressPortTxUtil => 0

def wanted (mask : BitVec 16) (f : Field) : Bool := mask.getLsbD (bit f)

def intEnd (s : Segments) : Nat := 34 + s.l4.encode.length + 20

def totalLen (frame : List Byte) : BitVec 16 := be16.decode ((frame.drop 16).take 2)

def udpLen (frame : List Byte) : BitVec 16 := be16.decode ((frame.drop 38).take 2)

def shimLen (s : Segments) (frame : List Byte) : Nat := (frame.getD (34 + s.l4.encode.length + 2) 0).toNat

/-- The output of a node against a frame with the parts s: it holds the wanted
fields behind the INT header, and the three lengths grow by the bytes added. -/
structure Accounted (v : NodeValues) (mask : BitVec 16) (s : Segments) (out : List Byte) : Prop where
  inserted : out.drop (intEnd s) = chosenBytes v (wanted mask) ++ s.frame.drop (intEnd s)
  totalLen : totalLen out = totalLen s.frame + BitVec.ofNat 16 (out.length - s.frame.length)
  udpLen : s.l4.udp?.isSome → udpLen out = udpLen s.frame + BitVec.ofNat 16 (out.length - s.frame.length)
  shimLen : 4 * shimLen s out % 1024 = (4 * shimLen s s.frame + (out.length - s.frame.length)) % 1024

section Nibbles

def nibbles (hi lo : BitVec 4) (f : Field) : Bool :=
  if 4 ≤ bit f then hi.getLsbD (bit f - 4) else lo.getLsbD (bit f)

def action003 (hi : BitVec 4) : InstAction := selected table003 (hi.setWidth 16 <<< 4)

def action407 (lo : BitVec 4) : InstAction := selected table407 (lo.setWidth 16)

def both (hi lo : BitVec 4) (f : Field) : Bool :=
  (action003 hi).fields.contains f || (action407 lo).fields.contains f

theorem wanted_eq (mask : BitVec 16) : wanted mask = nibbles (mask.extractLsb' 4 4) (mask.extractLsb' 0 4) := by
  funext f
  cases f <;> simp [wanted, nibbles, bit]

theorem high_nibble (mask : BitVec 16) : mask &&& 0x00f0#16 = (mask.extractLsb' 4 4).setWidth 16 <<< 4 := by
  ext i hi
  interval_cases i <;> simp

theorem low_nibble (mask : BitVec 16) : mask &&& 0x000f#16 = (mask.extractLsb' 0 4).setWidth 16 := by
  ext i hi
  interval_cases i <;> simp

theorem high_nibble_three (mask : BitVec 16) :
    mask &&& 0x00f0#16 = 0x0030#16 ↔ mask.extractLsb' 4 4 = 3 := by
  have hd : ∀ hi : BitVec 4, hi.setWidth 16 <<< 4 = 0x0030#16 ↔ hi = 3 := by decide
  rw [← hd, ← high_nibble]

theorem insertion_loaded (t : Tables) (h003 : t.tbIntInst0003 = table003) (h407 : t.tbIntInst0407 = table407)
    (mask : BitVec 16) :
    insertion t mask = ⟨both (mask.extractLsb' 4 4) (mask.extractLsb' 0 4),
      (action003 (mask.extractLsb' 4 4)).words + (action407 (mask.extractLsb' 0 4)).words⟩ := by
  rw [insertion, h003, h407, high_nibble, low_nibble]
  rfl

theorem actions_right (hi lo : BitVec 4) (h : hi ≠ 3) :
    both hi lo = nibbles hi lo ∧
      (action003 hi).words + (action407 lo).words = chosenWords (nibbles hi lo) := by
  have hd : ∀ hi lo : BitVec 4, hi ≠ 3 → (∀ f ∈ allFields, both hi lo f = nibbles hi lo f) ∧
      (action003 hi).words + (action407 lo).words = chosenWords (nibbles hi lo) := by
    decide +kernel
  refine ⟨?_, (hd hi lo h).2⟩
  funext f
  exact (hd hi lo h).1 f (mem_allFields f)

/-- For the half byte 3 the node inserts an egress timestamp for the queue
occupancy, so the bytes are never as many as wanted. -/
theorem actions_wrong (lo : BitVec 4) : chosenWords (both 3 lo) ≠ chosenWords (nibbles 3 lo) := by
  revert lo
  decide +kernel

end Nibbles

section Frames

variable (s : Segments) (shim : Intl4Shim) (h : TransitIntHeader)

theorem drop_intEnd (hint : s.int = some (shim, h)) : s.frame.drop (intEnd s) = s.payload := by
  have hl : (ethernetCodec.encode s.ethernet ++ (ipv4Codec.encode s.ipv4 ++
      (s.l4.encode ++ intBytes s.int))).length = intEnd s := by
    have he : (ethernetCodec.encode s.ethernet).length = 14 := ethernetCodec.encode_length _
    have hi : (ipv4Codec.encode s.ipv4).length = 20 := ipv4Codec.encode_length _
    have hb : (intBytes s.int).length = 20 := by rw [hint]; rfl
    simp only [List.length_append, he, hi, hb, intEnd]
    omega
  have hf : s.frame = (ethernetCodec.encode s.ethernet ++ (ipv4Codec.encode s.ipv4 ++
      (s.l4.encode ++ intBytes s.int))) ++ s.payload := by
    simp only [Segments.frame, List.append_assoc]
  rw [hf, List.drop_left' hl]

theorem frame_length (hint : s.int = some (shim, h)) : s.frame.length = intEnd s + s.payload.length := by
  have hd := congrArg List.length (drop_intEnd s shim h hint)
  have hi : intEnd s ≤ s.frame.length := by
    have he : (ethernetCodec.encode s.ethernet).length = 14 := ethernetCodec.encode_length _
    have hp : (ipv4Codec.encode s.ipv4).length = 20 := ipv4Codec.encode_length _
    have hb : (intBytes s.int).length = 20 := by rw [hint]; rfl
    simp only [Segments.frame, List.length_append, he, hp, hb, intEnd]
    omega
  rw [List.length_drop] at hd
  omega

theorem totalLen_frame : totalLen s.frame = s.ipv4.totalLen := be16.decode_encode _

theorem udpLen_frame (u : Udp) (hl4 : s.l4 = .udp u) : udpLen s.frame = u.len := by
  rw [Segments.frame, hl4]
  exact be16.decode_encode _

theorem shimLen_frame (hint : s.int = some (shim, h)) : shimLen s s.frame = shim.len.toNat := by
  obtain ⟨ethernet, ipv4, l4, int, payload⟩ := s
  dsimp only at hint
  subst hint
  cases l4 <;> rfl

end Frames

structure Shows (v : NodeValues) (i : Insertion) (s : Segments) (out : List Byte) : Prop where
  drop : out.drop (intEnd s) = chosenBytes v i.fields ++ s.frame.drop (intEnd s)
  length : out.length = s.frame.length + 4 * chosenWords i.fields
  totalLen : totalLen out = totalLen s.frame + BitVec.ofNat 16 (i.words * 4)
  udpLen : s.l4.udp?.isSome → udpLen out = udpLen s.frame + BitVec.ofNat 16 (i.words * 4)
  shimLen : shimLen s out = (shimLen s s.frame + i.words) % 256

theorem accounted_of_shows {v : NodeValues} {i : Insertion} {mask : BitVec 16} {s : Segments}
    {out : List Byte} (hs : Shows v i s out) (hf : i.fields = wanted mask)
    (hw : i.words = chosenWords (wanted mask)) : Accounted v mask s out := by
  have hl : out.length - s.frame.length = i.words * 4 := by
    rw [hs.length, hf, hw]
    omega
  constructor
  case inserted => rw [hs.drop, hf]
  case totalLen => rw [hs.totalLen, hl]
  case udpLen =>
      intro hu
      rw [hs.udpLen hu, hl]
  case shimLen =>
      rw [hs.shimLen, hl]
      omega

section Transit

variable (hop : Hop) (d : Datagram) (shim : Intl4Shim) (h : TransitIntHeader)

variable (hint : d.int = some (shim, h)) (htransit : IsTransit hop)
  (hx : h.hopInfo ≠ exhausted hop.program.constants)

include hint htransit hx

theorem forward_shows :
    ∃ out, hop.forward d.frame = some out ∧
      Shows (hop.values d.toSegments) (hop.insertion h.instructionMask) d.toSegments out := by
  refine ⟨_, forward_frame hop d.toSegments d.accepted htransit.sink, ?_⟩
  have he := effect_inserted hop d.toSegments shim h htransit.source hint hx
  have hint' := congrArg Segments.int he
  have hl4 := congrArg Segments.l4 he
  have hend : intEnd (hop.effect d.toSegments) = intEnd d.toSegments := by
    rw [intEnd, hl4, length_withCsum, length_growUdp]
    rfl
  have hpay := congrArg Segments.payload he
  constructor
  case drop =>
      rw [drop_intEnd _ shim h hint, ← hend, drop_intEnd _ _ _ hint', hpay]
  case length =>
      rw [frame_length _ shim h hint, frame_length _ _ _ hint', hend, hpay, List.length_append,
        chosenBytes_length]
      omega
  case totalLen =>
      rw [totalLen_frame, totalLen_frame, he]
  case udpLen =>
      intro hu
      cases hd : d.l4 with
      | udp u =>
          rw [hd] at hl4
          rw [udpLen_frame _ u hd, udpLen_frame _ _ hl4]
      | tcp u => simp [hd, Transport.udp?] at hu
  case shimLen =>
      have hs : shimLen d.toSegments (hop.effect d.toSegments).frame =
          shimLen (hop.effect d.toSegments) (hop.effect d.toSegments).frame := by
        rw [shimLen, shimLen, hl4, length_withCsum, length_growUdp]
      rw [hs, shimLen_frame _ _ _ hint', shimLen_frame _ shim h hint, BitVec.toNat_add,
        BitVec.toNat_ofNat, Nat.add_mod_mod]

variable (h003 : hop.tables.tbIntInst0003 = table003) (h407 : hop.tables.tbIntInst0407 = table407)

include h003 h407

theorem forward_shows_loaded :
    ∃ out, hop.forward d.frame = some out ∧ Shows (hop.values d.toSegments)
      ⟨both (h.instructionMask.extractLsb' 4 4) (h.instructionMask.extractLsb' 0 4),
        (action003 (h.instructionMask.extractLsb' 4 4)).words +
          (action407 (h.instructionMask.extractLsb' 0 4)).words⟩ d.toSegments out := by
  rw [← insertion_loaded hop.tables h003 h407 h.instructionMask]
  exact forward_shows hop d shim h hint htransit hx

theorem accounted_of_ne (hmask : h.instructionMask &&& 0x00f0#16 ≠ 0x0030#16) :
    ∃ out, hop.forward d.frame = some out ∧
      Accounted (hop.values d.toSegments) h.instructionMask d.toSegments out := by
  obtain ⟨out, hout, hs⟩ := forward_shows_loaded hop d shim h hint htransit hx h003 h407
  obtain ⟨hf, hw⟩ := actions_right _ (h.instructionMask.extractLsb' 0 4)
    (fun h3 => hmask ((high_nibble_three _).mpr h3))
  rw [← wanted_eq] at hf hw
  exact ⟨out, hout, accounted_of_shows hs hf hw⟩

theorem ne_of_accounted (ha : ∃ out, hop.forward d.frame = some out ∧
      Accounted (hop.values d.toSegments) h.instructionMask d.toSegments out) :
    h.instructionMask &&& 0x00f0#16 ≠ 0x0030#16 := by
  obtain ⟨out, hout, ha⟩ := ha
  obtain ⟨out', hout', hs⟩ := forward_shows_loaded hop d shim h hint htransit hx h003 h407
  intro hmask
  cases hout.symm.trans hout'
  have hl := congrArg List.length (hs.drop.symm.trans ha.inserted)
  rw [List.length_append, List.length_append, chosenBytes_length, chosenBytes_length, wanted_eq,
    (high_nibble_three _).mp hmask] at hl
  dsimp only at hl
  exact actions_wrong (h.instructionMask.extractLsb' 0 4) (by omega)

/-- A transit node with the shipped tables accounts for its metadata for every
mask but those whose upper half byte is 3. -/
theorem metadata_accounted_iff :
    (∃ out, hop.forward d.frame = some out ∧
      Accounted (hop.values d.toSegments) h.instructionMask d.toSegments out) ↔
    h.instructionMask &&& 0x00f0#16 ≠ 0x0030#16 :=
  ⟨ne_of_accounted hop d shim h hint htransit hx h003 h407,
    accounted_of_ne hop d shim h hint htransit hx h003 h407⟩

end Transit

def sampleHeader (mask : BitVec 16) : TransitIntHeader := ⟨1, 0, 0, 0, 0, 0x0604, mask, 0⟩

theorem metadata_accounted_sample :
    ∃ out, (sampleHop false .defaultConf).forward (sampleCarrying (sampleHeader 0x00cc) 0).frame =
        some out ∧
      Accounted ((sampleHop false .defaultConf).values (sampleCarrying (sampleHeader 0x00cc) 0).toSegments)
        0x00cc (sampleCarrying (sampleHeader 0x00cc) 0).toSegments out :=
  (metadata_accounted_iff (sampleHop false .defaultConf) (sampleCarrying (sampleHeader 0x00cc) 0) _ _ rfl
    ⟨rfl, rfl⟩ (by decide) rfl rfl).mpr (by decide)

theorem queue_occupancy_missing :
    ¬ ∃ out, (sampleHop false .defaultConf).forward (sampleCarrying (sampleHeader 0x0030) 0).frame =
        some out ∧
      Accounted ((sampleHop false .defaultConf).values (sampleCarrying (sampleHeader 0x0030) 0).toSegments)
        0x0030 (sampleCarrying (sampleHeader 0x0030) 0).toSegments out := by
  intro ha
  exact ne_of_accounted (sampleHop false .defaultConf) (sampleCarrying (sampleHeader 0x0030) 0) _ _ rfl
    ⟨rfl, rfl⟩ (by decide) rfl rfl ha (by decide)

end IntPlatform.P4c.Accounting
