import IntPlatform.T4p4s.Carrying

namespace IntPlatform.T4p4s.Counters

open Library.Formats HeaderTypes Parsing Controls Effects T4p4s.Path ByteEffect Carrying

def shimLen (s : Segments) (frame : List Byte) : Nat := (frame.getD (l4End s + 2) 0).toNat

def remainingHopCnt (s : Segments) (frame : List Byte) : Nat := (frame.getD (l4End s + 7) 0).toNat

def exceeded (s : Segments) (frame : List Byte) : Bool := (frame.getD (l4End s + 4) 0).getLsbD 0

/-- The two counters of INT stay right along a path: the last node emits a
frame with all its INT words counted, and the hop count stops at zero. -/
structure CountersKept (s : Segments) (path : IntPath) : Prop where
  counted : ∃ out, runPath path.hops s.frame = some out ∧
    out.length = s.frame.length + 4 * shimLen s out
  noWrap : ∀ pre hop post frame out, path.hops = pre ++ hop :: post → pre ≠ [] →
    runPath pre s.frame = some frame → hop.forward frame = some out →
    ¬ (remainingHopCnt s frame = 0 ∧ remainingHopCnt s out = 255)
  exhausted : ∀ pre hop post frame out, path.hops = pre ++ hop :: post → pre ≠ [] →
    runPath pre s.frame = some frame → hop.forward frame = some out →
    remainingHopCnt s frame = 0 → out.length = frame.length ∧ exceeded s out = true

theorem carrying_shimLen (s : Segments) (seq csum : BitVec 16) (stack : List NodeMeta) :
    shimLen s (carrying s seq stack csum).frame = (3 + 6 * stack.length) % 256 := by
  rw [← shimLen_toNat]
  obtain ⟨ethernet, ipv4, l4, int, payload⟩ := s
  cases l4 <;> rfl

theorem carrying_remaining (s : Segments) (seq csum : BitVec 16) (stack : List NodeMeta)
    (h : stack.length ≤ 255) :
    remainingHopCnt s (carrying s seq stack csum).frame = 255 - stack.length := by
  have hr : remainingHopCnt s (carrying s seq stack csum).frame =
      (0xff - BitVec.ofNat 8 stack.length).toNat := by
    obtain ⟨ethernet, ipv4, l4, int, payload⟩ := s
    cases l4 <;> rfl
  rw [hr]
  bv_omega

theorem stackBytes_length (stack : List NodeMeta) : (stackBytes stack).length = 24 * stack.length := by
  induction stack with
  | nil => rfl
  | cons m stack ih =>
      have hm : (nodeMetaCodec.encode m).length = 24 := nodeMetaCodec.encode_length m
      rw [stackBytes, List.flatMap_cons, List.length_append, hm]
      change 24 + (stackBytes stack).length = _
      rw [ih, List.length_cons]
      omega

theorem carrying_length (s : Segments) (seq csum : BitVec 16) (stack : List NodeMeta)
    (hint : s.int = none) :
    (carrying s seq stack csum).frame.length = s.frame.length + 4 * (3 + 6 * stack.length) := by
  have hl : (clearCsum (growUdp (12 + 24 * BitVec.ofNat 16 stack.length) s.l4)).encode.length =
      s.l4.encode.length := by rw [length_clearCsum, length_growUdp]
  simp only [carrying, Segments.frame, hint, intBytes, List.length_append, hl, stackBytes_length,
    Codec.encode_length, List.length_nil]
  have hs : intl4ShimCodec.size = 4 := rfl
  have hh : intHeaderCodec.size = 8 := rfl
  omega

section Paths

variable (d : Datagram) (hint : d.int = none) (path : IntPath)

include hint

theorem runPath_eq_some (transits : List Hop) (htransit : ∀ hop ∈ transits, hop ∈ path.transits)
    (out : List Byte) (h : runPath (path.source :: transits) d.frame = some out) :
    ∃ csum, out =
      (carrying d.toSegments path.seq (onBoard (path.source :: transits)) csum).frame := by
  obtain ⟨csum, hf⟩ := forward_source path.source d hint path.isSource.1 path.isSource.2
  rw [runPath, hf, Option.bind_some] at h
  obtain ⟨csum', ho⟩ := runPath_carrying_eq_some d path.seq transits
    (fun hop hm => path.isTransit hop (htransit hop hm)) [path.source.nodeMeta] csum out h
  refine ⟨csum', ?_⟩
  rw [ho, ← List.append_nil (onBoard (path.source :: transits)), onBoard_cons]

theorem runPath_delivers (h : path.hops.length ≤ 85) :
    ∃ csum, runPath path.hops d.frame =
      some (carrying d.toSegments path.seq (onBoard path.hops) csum).frame := by
  obtain ⟨csum, hf⟩ := forward_source path.source d hint path.isSource.1 path.isSource.2
  have hadm : ∀ k, k < path.transits.length → Admissible ([path.source.nodeMeta].length + k) := by
    intro k hk
    rw [IntPath.hops, List.length_cons] at h
    exact admissible_of_le _ (by rw [List.length_singleton]; omega)
  obtain ⟨csum', hr⟩ := runPath_carrying d path.seq path.transits path.isTransit
    [path.source.nodeMeta] csum hadm
  refine ⟨csum', ?_⟩
  rw [IntPath.hops, runPath, hf, Option.bind_some]
  refine hr.trans ?_
  rw [← onBoard_cons, List.append_nil]

theorem remaining_pos (h : path.hops.length ≤ 42) (pre post : List Hop) (hop : Hop)
    (frame : List Byte) (hsplit : path.hops = pre ++ hop :: post) (hne : pre ≠ [])
    (hrun : runPath pre d.frame = some frame) : remainingHopCnt d.toSegments frame ≠ 0 := by
  cases pre with
  | nil => exact absurd rfl hne
  | cons first pre =>
      obtain ⟨hfirst, hrest⟩ := List.cons.inj hsplit
      rw [← hfirst] at hrun
      have hm : ∀ hop' ∈ pre, hop' ∈ path.transits := by
        intro hop' hm
        rw [hrest]
        exact List.mem_append_left _ hm
      obtain ⟨csum, rfl⟩ := runPath_eq_some d hint path pre hm frame hrun
      have hl : (onBoard (path.source :: pre)).length ≤ 42 := by
        have hlen := congrArg List.length hsplit
        simp only [List.length_append, List.length_cons] at hlen
        rw [onBoard_length, List.length_cons]
        omega
      rw [carrying_remaining _ _ _ _ (by omega)]
      omega

theorem countersKept_of_le (h : path.hops.length ≤ 42) : CountersKept d.toSegments path where
  counted := by
    obtain ⟨csum, hr⟩ := runPath_delivers d hint path (by omega)
    refine ⟨_, hr, ?_⟩
    rw [carrying_length _ _ _ _ hint, carrying_shimLen, onBoard_length, Nat.mod_eq_of_lt (by omega)]
  noWrap := by
    rintro pre hop post frame out hsplit hne hrun - ⟨hzero, -⟩
    exact remaining_pos d hint path h pre post hop frame hsplit hne hrun hzero
  exhausted := by
    intro pre hop post frame out hsplit hne hrun _ hzero
    exact absurd hzero (remaining_pos d hint path h pre post hop frame hsplit hne hrun)

/-- From the 43rd node on the shim length has wrapped, and from the 86th on no
parser takes the frame any more. -/
theorem length_le_of_countersKept (h : CountersKept d.toSegments path) : path.hops.length ≤ 42 := by
  obtain ⟨out, hrun, hlen⟩ := h.counted
  obtain ⟨csum, rfl⟩ := runPath_eq_some d hint path path.transits (fun _ hm => hm) out hrun
  rw [carrying_length _ _ _ _ hint, carrying_shimLen] at hlen
  have hmod := Nat.mod_lt (3 + 6 * (onBoard (path.source :: path.transits)).length)
    (show 0 < 256 by omega)
  rw [onBoard_length] at hlen hmod
  rw [IntPath.hops]
  omega

end Paths

theorem countersKept_iff (d : Datagram) (hint : d.int = none) (path : IntPath) :
    CountersKept d.toSegments path ↔ path.hops.length ≤ 42 :=
  ⟨length_le_of_countersKept d hint path, countersKept_of_le d hint path⟩

theorem countersKept_sample : CountersKept sampleDatagram.toSegments (IntPath.sample 41) := by
  rw [countersKept_iff sampleDatagram rfl]
  simp [IntPath.hops, IntPath.sample]

theorem counters_wrap_sample : ¬ CountersKept sampleDatagram.toSegments (IntPath.sample 42) := by
  intro h
  have hl := length_le_of_countersKept sampleDatagram rfl (IntPath.sample 42) h
  simp [IntPath.hops, IntPath.sample] at hl

end IntPlatform.T4p4s.Counters
