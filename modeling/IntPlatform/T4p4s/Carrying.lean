import IntPlatform.T4p4s.ByteEffect

namespace IntPlatform.T4p4s.Carrying

open Library.Formats Library.HeaderValidity HeaderTypes Parsing Controls Switch Effects T4p4s.Path ByteEffect

def stackBytes (stack : List NodeMeta) : List Byte := stack.flatMap nodeMetaCodec.encode

/-- What INT adds to an application packet: the packet d, marked, with the
metadata of the nodes passed so far, the latest first. The counters are taken
modulo their widths, and only the IPv4 checksum is left open. -/
def carrying (d : Segments) (seq : BitVec 16) (stack : List NodeMeta) (csum : BitVec 16) : Segments :=
  ⟨d.ethernet, { d.ipv4 with
      dscp := ipv4DscpInt
      totalLen := d.ipv4.totalLen + 12 + 24 * BitVec.ofNat 16 stack.length
      checksum := csum },
    clearCsum (growUdp (12 + 24 * BitVec.ofNat 16 stack.length) d.l4),
    some (⟨intTypeHopByHop, 0, 3 + 6 * BitVec.ofNat 8 stack.length, d.ipv4.dscp, 0⟩,
      ⟨intVersion, 0, 0, 0, 0, 1, 0, 6, 0xff - BitVec.ofNat 8 stack.length, 0x00cc, seq⟩),
    stackBytes stack ++ d.payload⟩

/-- The shim length of a packet with k nodes on board is not below the three
words that the parser asks for. -/
def Admissible (k : Nat) : Prop := 3 ≤ (3 + 6 * k) % 256

instance (k : Nat) : Decidable (Admissible k) := inferInstanceAs (Decidable (_ ≤ _))

theorem shimLen_toNat (k : Nat) : (3 + 6 * BitVec.ofNat 8 k : BitVec 8).toNat = (3 + 6 * k) % 256 := by
  simp [BitVec.toNat_add, BitVec.toNat_mul]

theorem admissible_iff (k : Nat) : 3#8 ≤ 3 + 6 * BitVec.ofNat 8 k ↔ Admissible k := by
  rw [BitVec.le_def, shimLen_toNat]
  rfl

theorem admissible_of_le (k : Nat) (h : k ≤ 84) : Admissible k := by
  decide +revert

theorem carrying_accepted (d : Datagram) (seq csum : BitVec 16) (stack : List NodeMeta)
    (h : Admissible stack.length) : (carrying d.toSegments seq stack csum).Accepted where
  etherType := d.accepted.etherType
  protocol := by
    have hp := d.accepted.protocol
    cases hl : d.l4 <;> simpa [carrying, hl, growUdp, clearCsum, Transport.protocol] using hp
  marked := by simp [carrying]
  supported := by
    rintro _ ⟨⟩
    exact ⟨(admissible_iff _).mpr h, rfl⟩

theorem effect_source_carrying (hop : Hop) (d : Segments) (hsrc : hop.cfg.srcEnable = true)
    (hint : d.int = none) :
    ∃ csum, hop.effect d = carrying d (nextSeq hop.reg1).1 [hop.nodeMeta] csum := by
  obtain ⟨csum, he⟩ := effect_source hop d hsrc hint
  refine ⟨csum, he.trans ?_⟩
  have hl : d.ipv4.totalLen + 36 = d.ipv4.totalLen + 12 + 24 * BitVec.ofNat 16 [hop.nodeMeta].length := by
    rw [BitVec.add_assoc]
    rfl
  have hr : 0xfe = 0xff - BitVec.ofNat 8 [hop.nodeMeta].length := by
    rw [List.length_singleton]
    decide
  simp only [carrying, ← hl, ← hr, stackBytes, List.flatMap_cons, List.flatMap_nil, List.append_nil]
  rfl

theorem effect_transit_carrying (hop : Hop) (d : Segments) (seq csum : BitVec 16)
    (stack : List NodeMeta) (hsrc : hop.cfg.srcEnable = false) :
    ∃ csum', hop.effect (carrying d seq stack csum) = carrying d seq (hop.nodeMeta :: stack) csum' := by
  obtain ⟨csum', he⟩ := effect_transit hop (carrying d seq stack csum) _ _ hsrc rfl
  refine ⟨csum', he.trans ?_⟩
  have h16 : 24 * BitVec.ofNat 16 (hop.nodeMeta :: stack).length =
      24 * BitVec.ofNat 16 stack.length + 24 := by
    rw [List.length_cons, BitVec.ofNat_add, BitVec.mul_add]
    rfl
  have h8 : 3 + 6 * BitVec.ofNat 8 (hop.nodeMeta :: stack).length =
      3 + 6 * BitVec.ofNat 8 stack.length + 6 := by
    rw [List.length_cons, BitVec.ofNat_add, BitVec.mul_add, BitVec.add_assoc]
    rfl
  have hr : 0xff - BitVec.ofNat 8 (hop.nodeMeta :: stack).length =
      0xff - BitVec.ofNat 8 stack.length - 1 := by
    rw [List.length_cons]
    bv_omega
  simp only [carrying, transitShim, transitHeader, growUdp_clearCsum, h16, h8, hr, stackBytes,
    List.flatMap_cons, List.append_assoc, BitVec.add_assoc]

theorem forward_carrying_short (hop : Hop) (d : Datagram) (seq csum : BitVec 16)
    (stack : List NodeMeta) (h : ¬ Admissible stack.length) :
    hop.forward (carrying d.toSegments seq stack csum).frame = none := by
  have hp : (carrying d.toSegments seq stack csum).ipv4.protocol =
      (carrying d.toSegments seq stack csum).l4.protocol := by
    have hp := d.accepted.protocol
    cases hl : d.l4 <;> simpa [carrying, hl, growUdp, clearCsum, Transport.protocol] using hp
  have hs := parserImpl_short hop.arrival.md (carrying d.toSegments seq stack csum) _ _
    d.accepted.etherType hp rfl rfl (mt (admissible_iff _).mp h)
  rw [Hop.forward, v1Switch, hs]
  rfl

theorem forward_carrying (hop : Hop) (d : Datagram) (seq csum : BitVec 16) (stack : List NodeMeta)
    (hsrc : hop.cfg.srcEnable = false) (hk : hop.cfg.sinkEnable = false)
    (h : Admissible stack.length) :
    ∃ csum', hop.forward (carrying d.toSegments seq stack csum).frame =
      some (carrying d.toSegments seq (hop.nodeMeta :: stack) csum').frame := by
  obtain ⟨csum', he⟩ := effect_transit_carrying hop d.toSegments seq csum stack hsrc
  refine ⟨csum', ?_⟩
  rw [forward_frame hop _ (carrying_accepted d seq csum stack h) hk, he]

theorem forward_source (hop : Hop) (d : Datagram) (hint : d.int = none)
    (hsrc : hop.cfg.srcEnable = true) (hk : hop.cfg.sinkEnable = false) :
    ∃ csum, hop.forward d.frame =
      some (carrying d.toSegments (nextSeq hop.reg1).1 [hop.nodeMeta] csum).frame := by
  obtain ⟨csum, he⟩ := effect_source_carrying hop d.toSegments hsrc hint
  refine ⟨csum, ?_⟩
  rw [forward_frame hop _ d.accepted hk, he]

/-- A path whose first node is a source and whose other nodes are transit nodes. -/
structure IntPath where
  source : Hop
  transits : List Hop
  isSource : source.cfg.srcEnable = true ∧ source.cfg.sinkEnable = false
  isTransit : ∀ hop ∈ transits, hop.cfg.srcEnable = false ∧ hop.cfg.sinkEnable = false

namespace IntPath

def hops (path : IntPath) : List Hop := path.source :: path.transits

def seq (path : IntPath) : BitVec 16 := (nextSeq path.source.reg1).1

def sample (n : Nat) : IntPath where
  source := sampleSource
  transits := List.replicate n sampleTransit
  isSource := ⟨rfl, rfl⟩
  isTransit := by
    intro hop h
    rw [List.eq_of_mem_replicate h]
    exact ⟨rfl, rfl⟩

end IntPath

def onBoard (hops : List Hop) : List NodeMeta := (hops.map Hop.nodeMeta).reverse

theorem onBoard_length (hops : List Hop) : (onBoard hops).length = hops.length := by
  simp [onBoard]

theorem onBoard_cons (hop : Hop) (hops : List Hop) (stack : List NodeMeta) :
    onBoard (hop :: hops) ++ stack = onBoard hops ++ (hop.nodeMeta :: stack) := by
  simp [onBoard]

/-- Transit nodes deliver the packet as long as its shim length is admissible. -/
theorem runPath_carrying (d : Datagram) (seq : BitVec 16) (hops : List Hop)
    (htransit : ∀ hop ∈ hops, hop.cfg.srcEnable = false ∧ hop.cfg.sinkEnable = false)
    (stack : List NodeMeta) (csum : BitVec 16)
    (h : ∀ k, k < hops.length → Admissible (stack.length + k)) :
    ∃ csum', runPath hops (carrying d.toSegments seq stack csum).frame =
      some (carrying d.toSegments seq (onBoard hops ++ stack) csum').frame := by
  induction hops generalizing stack csum with
  | nil => exact ⟨csum, rfl⟩
  | cons hop hops ih =>
      obtain ⟨hsrc, hk⟩ := htransit hop List.mem_cons_self
      obtain ⟨csum₁, hf⟩ := forward_carrying hop d seq csum stack hsrc hk (h 0 (by simp))
      have hrest : ∀ k, k < hops.length → Admissible ((hop.nodeMeta :: stack).length + k) := by
        intro k hlt
        have hk := h (k + 1) (by simpa using hlt)
        rwa [List.length_cons, Nat.add_assoc, Nat.add_comm 1 k]
      obtain ⟨csum₂, hr⟩ := ih (fun hop' hm => htransit hop' (List.mem_cons_of_mem _ hm))
        (hop.nodeMeta :: stack) csum₁ hrest
      refine ⟨csum₂, ?_⟩
      rw [runPath, hf, Option.bind_some, hr, onBoard_cons]

/-- Whatever transit nodes deliver has this form. -/
theorem runPath_carrying_eq_some (d : Datagram) (seq : BitVec 16) (hops : List Hop)
    (htransit : ∀ hop ∈ hops, hop.cfg.srcEnable = false ∧ hop.cfg.sinkEnable = false)
    (stack : List NodeMeta) (csum : BitVec 16) (out : List Byte)
    (h : runPath hops (carrying d.toSegments seq stack csum).frame = some out) :
    ∃ csum', out = (carrying d.toSegments seq (onBoard hops ++ stack) csum').frame := by
  induction hops generalizing stack csum with
  | nil => exact ⟨csum, (Option.some.inj h).symm⟩
  | cons hop hops ih =>
      obtain ⟨hsrc, hk⟩ := htransit hop List.mem_cons_self
      by_cases ha : Admissible stack.length
      · obtain ⟨csum₁, hf⟩ := forward_carrying hop d seq csum stack hsrc hk ha
        rw [runPath, hf, Option.bind_some] at h
        obtain ⟨csum₂, ho⟩ := ih (fun hop' hm => htransit hop' (List.mem_cons_of_mem _ hm))
          (hop.nodeMeta :: stack) csum₁ h
        refine ⟨csum₂, ?_⟩
        rw [ho, onBoard_cons]
      · rw [runPath, forward_carrying_short hop d seq csum stack ha] at h
        cases h

end IntPlatform.T4p4s.Carrying
