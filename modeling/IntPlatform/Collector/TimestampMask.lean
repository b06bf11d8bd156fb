import IntPlatform.Collector.FlowIsolation
import IntPlatform.Collector.Iterations
import IntPlatform.Collector.UpperBits

namespace IntPlatform.Collector.TimestampMask

open Library.Formats Library.SlotTable Library.Mealy Records ProcessPacket Outcome Buffers Loop Runs Fields
open Iterations UpperBits FlowIsolation

/-- The sink timestamp of the last of some packets between two addresses, or
what the flow map had for them. -/
def storedTime (m : Memory) (buffers : List (List Byte)) (key : BitVec 64) : BitVec 64 :=
  ((buffers.filter fun b => mapKey (influxOf b) = key).map fun b =>
    ntoh64 (influxOf b).ndkTstamp).getLast?.getD (m.flowMap key).prevDstTs

def stampsOf (b : List Byte) : List (BitVec 64) := stamps (announced b) (ntoh64 (influxOf b).ndkTstamp)

def storedStamp (m : Memory) (buffers : List (List Byte)) (i : Nat) : BitVec 64 :=
  (buffers.filterMap fun b => (stampsOf b)[i]?).getLast?.getD (entry m.prevTimestamps i)

structure Pair where
  left : List Byte
  right : List Byte
  ret : BitVec 32

def exported (opt : Options) (st : Memory) (buffer : List Byte) (events : List Event) :
    List (Option TelemetricHdr) :=
  (passes opt st buffer events).1.map Prod.fst

def lefts (pairs : List Pair) : List Event := pairs.map fun p => ⟨some p.left, p.ret⟩
def rights (pairs : List Pair) : List Event := pairs.map fun p => ⟨some p.right, p.ret⟩

def SameExports (opt : Options) (m : Memory) (buffer : List Byte) (pairs : List Pair) : Prop :=
  exported opt m buffer (lefts pairs) = exported opt m buffer (rights pairs)

def inputs (b b' : List Byte) (pairs : List Pair) : List (List Byte × List Byte) :=
  (buffersOf b (pairs.map Pair.left)).zip (buffersOf b' (pairs.map Pair.right))

/-- If both runs come to this packet and export it, then the timestamps that it
uses are the same in both, and the last ones stored for its addresses and its
positions are, too. -/
def Unmasked (opt : Options) (m : Memory) (before : List (List Byte × List Byte))
    (p : List Byte × List Byte) : Prop :=
  (∀ q ∈ before ++ [p], (influxOf q.1).hopMetaLen ≠ 0) → ¬ ZeroRate opt → opt.hostValid ≠ 0 →
    (m.pktCnt + BitVec.ofNat 64 before.length) % opt.smplRate.setWidth 64 = 0 →
    SameTimes p.1 p.2 ∧
      storedTime m (before.map Prod.fst) (mapKey (influxOf p.1)) =
        storedTime m (before.map Prod.snd) (mapKey (influxOf p.1)) ∧
      ∀ i ≤ metaCntOf (influxOf p.1),
        storedStamp m (before.map Prod.fst) i = storedStamp m (before.map Prod.snd) i

structure Holds (m st : Memory) (buffers : List (List Byte)) : Prop where
  time : ∀ key, (st.flowMap key).prevDstTs = storedTime m buffers key
  stamps : ∀ i, entry st.prevTimestamps i = storedStamp m buffers i
  count : st.pktCnt = m.pktCnt + BitVec.ofNat 64 buffers.length

theorem holds_initial (m : Memory) : Holds m m [] where
  time _ := rfl
  stamps _ := rfl
  count := (BitVec.add_zero m.pktCnt).symm

section Step

variable (opt : Options) (ret : BitVec 32) (m st st' : Memory) (b b' : List Byte)

theorem holds_passed (buffers : List (List Byte)) (h : Holds m st buffers) :
    Holds m (passed opt ret (recorded opt st b)).2 (buffers ++ [b]) := by
  obtain ⟨hflow, hprev, hcnt⟩ := passed_state opt ret (recorded opt st b)
  refine ⟨?_, ?_, ?_⟩
  · intro key
    rw [hflow, recorded_flowMap, storedTime, List.filter_append]
    by_cases hk : mapKey (influxOf b) = key
    · rw [List.filter_cons_of_pos (by simpa using hk), List.filter_nil, List.map_append, List.map_singleton,
        List.getLast?_concat, hk, Function.update_self]
      rfl
    · rw [List.filter_cons_of_neg (by simpa using hk), List.filter_nil, List.append_nil,
        Function.update_of_ne (Ne.symm hk)]
      exact h.time key
  · intro i
    have hlen : (stampsOf b).length ≤ reach := by
      rw [stampsOf, stamps, List.length_append, List.length_map, announced_length]
      exact metaCntOf_lt_reach _
    have hentry : entry (recorded opt st b).2.prevTimestamps i = _ :=
      entry_overwrite st.prevTimestamps (stampsOf b) i hlen
    rw [hprev, hentry, storedStamp, getLast_filterMap_concat, h.stamps]
    rfl
  · refine hcnt.trans ((congrArg (· + 1) h.count).trans ?_)
    rw [List.length_append, BitVec.ofNat_add, ← BitVec.add_assoc]
    rfl

theorem seq_passed (h : Twins b b') (hseq : ∀ key, (st.flowMap key).seq = (st'.flowMap key).seq)
    (key : BitVec 64) :
    ((passed opt ret (recorded opt st b)).2.flowMap key).seq =
      ((passed opt ret (recorded opt st' b')).2.flowMap key).seq := by
  obtain ⟨-, -, -, hraw⟩ := h.influxOf
  have hrawSeq : rawSeq (influxOf b) = rawSeq (influxOf b') := by rw [rawSeq, rawSeq, hraw]
  rw [(passed_state opt ret (recorded opt st b)).1, (passed_state opt ret (recorded opt st' b')).1,
    recorded_flowMap, recorded_flowMap, h.mapKey, hrawSeq]
  by_cases hk : mapKey (influxOf b') = key
  · rw [hk, Function.update_self, Function.update_self, seqAfter, seqAfter, hseq]
  · rw [Function.update_of_ne (Ne.symm hk), Function.update_of_ne (Ne.symm hk), hseq]

theorem exported_iff (hrate : ¬ ZeroRate opt) (h : Twins b b')
    (hseq : ∀ key, (st.flowMap key).seq = (st'.flowMap key).seq)
    (before : List (List Byte × List Byte)) (hst : Holds m st (before.map Prod.fst))
    (hst' : Holds m st' (before.map Prod.snd)) (hproc : ∀ q ∈ before, (influxOf q.1).hopMetaLen ≠ 0)
    (hb : (influxOf b).hopMetaLen ≠ 0) :
    (passed opt ret (recorded opt st b)).1 = (passed opt ret (recorded opt st' b')).1 ↔
      Unmasked opt m before (b, b') := by
  have hsampled (r : Memory) (hr : r.pktCnt = m.pktCnt + BitVec.ofNat 64 before.length) : Sampled opt r ↔
      opt.hostValid ≠ 0 ∧
        (m.pktCnt + BitVec.ofNat 64 before.length) % opt.smplRate.setWidth 64 = 0 := by
    rw [Sampled, hr]
  have hcnt := hst.count
  have hcnt' := hst'.count
  rw [List.length_map] at hcnt hcnt'
  have hleft := hsampled (recorded opt st b).2 hcnt
  have hright := hsampled (recorded opt st' b').2 hcnt'
  have hall : ∀ q ∈ before ++ [(b, b')], (influxOf q.1).hopMetaLen ≠ 0 :=
    List.forall_mem_append.mpr ⟨hproc, List.forall_mem_singleton.mpr hb⟩
  rw [passed, passed, Unmasked]
  by_cases hs : opt.hostValid ≠ 0 ∧
      (m.pktCnt + BitVec.ofNat 64 before.length) % opt.smplRate.setWidth 64 = 0
  · rw [if_pos (hleft.mpr hs), if_pos (hright.mpr hs), Option.some.injEq,
      recorded_iff opt st st' b b' h hseq, hst.time, hst'.time]
    simp only [hst.stamps, hst'.stamps]
    exact ⟨fun heq _ _ _ _ => heq, fun hun => hun hall hrate hs.1 hs.2⟩
  · rw [if_neg (mt hleft.mp hs), if_neg (mt hright.mp hs)]
    exact iff_of_true rfl (fun _ _ hhost hmod => absurd ⟨hhost, hmod⟩ hs)

end Step

theorem unmasked_of_not (opt : Options) (m : Memory) (before : List (List Byte × List Byte))
    (q : List Byte × List Byte) (rest : List (List Byte × List Byte))
    (hq : ¬ ((influxOf q.1).hopMetaLen ≠ 0 ∧ ¬ ZeroRate opt)) :
    AtEach (fun mid p => Unmasked opt m (before ++ mid) p) (q :: rest) := by
  rw [atEach_cons]
  refine ⟨?_, ?_⟩
  · intro hproc hrate
    exact absurd ⟨hproc q (List.mem_append_right _ (List.mem_singleton_self q)), hrate⟩ hq
  · intro mid p post _ hproc hrate
    refine absurd ⟨hproc q ?_, hrate⟩ hq
    exact List.mem_append_left _ (List.mem_append_right _ List.mem_cons_self)

theorem exports_iff (opt : Options) (m : Memory) (pairs : List Pair)
    (hpairs : ∀ p ∈ pairs, Twins p.left p.right) (before : List (List Byte × List Byte))
    (hproc : ∀ q ∈ before, (influxOf q.1).hopMetaLen ≠ 0) (st st' : Memory)
    (hst : Holds m st (before.map Prod.fst)) (hst' : Holds m st' (before.map Prod.snd))
    (hseq : ∀ key, (st.flowMap key).seq = (st'.flowMap key).seq) (b b' : List Byte)
    (hb : b.length = pktBufSize) (htwins : Twins b b') :
    exported opt st b (lefts pairs) = exported opt st' b' (rights pairs) ↔
      AtEach (fun mid p => Unmasked opt m (before ++ mid) p) (inputs b b' pairs) := by
  induction pairs generalizing before st st' b b' with
  | nil => exact iff_of_true rfl (atEach_nil _)
  | cons pair pairs ih =>
      have hpair := (hpairs pair List.mem_cons_self).recvfrom htwins
      have hb' : b'.length = pktBufSize := htwins.length.symm.trans hb
      have hhop : (influxOf (recvfrom pair.left b)).hopMetaLen =
          (influxOf (recvfrom pair.right b')).hopMetaLen := hpair.influxOf.2.2.1.2
      have hinputs : inputs b b' (pair :: pairs) = (recvfrom pair.left b, recvfrom pair.right b') ::
          inputs (recvfrom pair.left b) (recvfrom pair.right b') pairs := rfl
      rw [exported, exported, lefts, rights, List.map_cons, List.map_cons, passes, passes, hinputs]
      by_cases hq : (influxOf (recvfrom pair.left b)).hopMetaLen ≠ 0 ∧ ¬ ZeroRate opt
      · obtain ⟨hleft, hrate⟩ := hq
        have hright : (influxOf (recvfrom pair.right b')).hopMetaLen ≠ 0 := by rwa [← hhop]
        have hrest := ih (fun p hp => hpairs p (List.mem_cons_of_mem _ hp))
          (before ++ [(recvfrom pair.left b, recvfrom pair.right b')])
          (List.forall_mem_append.mpr ⟨hproc, List.forall_mem_singleton.mpr hleft⟩) _ _
          (by rw [List.map_append]; exact holds_passed opt pair.ret m st _ _ hst)
          (by rw [List.map_append]; exact holds_passed opt pair.ret m st' _ _ hst')
          (seq_passed opt pair.ret st st' _ _ hpair hseq) _ _ (recvfrom_length pair.left b hb) hpair
        rw [iteration_ok opt st b ⟨some pair.left, pair.ret⟩ hb hleft hrate,
          iteration_ok opt st' b' ⟨some pair.right, pair.ret⟩ hb' hright hrate, atEach_cons,
          List.append_nil,
          ← exported_iff opt pair.ret m st st' _ _ hrate hpair hseq before hst hst' hproc hleft]
        simp only [List.append_assoc, List.singleton_append] at hrest
        rw [← hrest, ← List.cons_eq_cons]
        rfl
      · have hq' : ¬ ((influxOf (recvfrom pair.right b')).hopMetaLen ≠ 0 ∧ ¬ ZeroRate opt) := by
          rwa [← hhop]
        rw [iteration_fault opt st b ⟨some pair.left, pair.ret⟩ hb hq,
          iteration_fault opt st' b' ⟨some pair.right, pair.ret⟩ hb' hq']
        exact iff_of_true rfl (unmasked_of_not opt m before _ _ hq)

/-- Two runs over twins, also in the 48-bit mode, export the same records exactly
when all timestamps that reach these records are the same. -/
theorem same_exports_iff (opt : Options) (m : Memory) (buffer : List Byte) (h : buffer.length = pktBufSize)
    (pairs : List Pair) (hpairs : ∀ p ∈ pairs, Twins p.left p.right) :
    SameExports opt m buffer pairs ↔ AtEach (Unmasked opt m) (inputs buffer buffer pairs) :=
  exports_iff opt m pairs hpairs [] (List.forall_mem_nil _) m m (holds_initial m) (holds_initial m)
    (fun _ => rfl) buffer buffer h (Twins.refl buffer)

/-- A report without nodes, once with the sink timestamp 100 and once with bit 48
set in it. -/
def samplePair : Pair where
  left := (sampleReport 5000 100).frame
  right := (sampleReport 5000 0x0001000000000064).frame
  ret := exitSuccess

theorem samplePair_twins : ∀ p ∈ [samplePair], Twins p.left p.right := by
  have hbytes : ∀ p < 50, ¬ Upper p → samplePair.left[p]? = samplePair.right[p]? := by decide
  intro p hp
  rw [List.mem_singleton.mp hp]
  refine ⟨rfl, ?_⟩
  intro i hi
  by_cases hlt : i < 50
  · exact hbytes i hlt hi
  · have hleft : samplePair.left.length ≤ i := Nat.not_lt.mp hlt
    have hright : samplePair.right.length ≤ i := Nat.not_lt.mp hlt
    rw [List.getElem?_eq_none hleft, List.getElem?_eq_none hright]

theorem samplePair_masked :
    ¬ AtEach (Unmasked ⟨1, 1, 1, 1⟩ Memory.initial)
      (inputs (List.replicate pktBufSize 0) (List.replicate pktBufSize 0) [samplePair]) := by
  have hinflux := influxOf_recvfrom samplePair.left (List.replicate pktBufSize 0) (Nat.le_refl 50)
  have hinflux' := influxOf_recvfrom samplePair.right (List.replicate pktBufSize 0) (Nat.le_refl 50)
  have hhop : (influxOf (recvfrom samplePair.left (List.replicate pktBufSize 0))).hopMetaLen ≠ 0 := by
    rw [hinflux]
    decide
  intro hall
  have htimes := (hall [] _ [] rfl (List.forall_mem_singleton.mpr hhop) (by decide) (by decide) (by decide)).1.1
  rw [hinflux, hinflux'] at htimes
  revert htimes
  decide

def sampledPairs : List Pair := [⟨samplePair.left, samplePair.left, exitSuccess⟩, samplePair]

theorem same_exports_sample :
    SameExports ⟨1, 1, 2, 1⟩ Memory.initial (List.replicate pktBufSize 0) sampledPairs := by
  have htwins : ∀ p ∈ sampledPairs, Twins p.left p.right :=
    List.forall_mem_cons.mpr ⟨Twins.refl _, samplePair_twins⟩
  have hinputs (buffer : List Byte) : inputs buffer buffer sampledPairs =
      [(recvfrom samplePair.left buffer, recvfrom samplePair.left buffer),
        (recvfrom samplePair.left (recvfrom samplePair.left buffer),
          recvfrom samplePair.right (recvfrom samplePair.left buffer))] := rfl
  rw [same_exports_iff ⟨1, 1, 2, 1⟩ Memory.initial _ List.length_replicate _ htwins, hinputs, atEach_cons,
    atEach_cons]
  refine ⟨?_, ?_, atEach_nil _⟩
  · intro _ _ _ _
    exact ⟨⟨rfl, fun _ _ => rfl⟩, rfl, fun _ _ => rfl⟩
  · intro _ _ _ hsampled
    exact absurd hsampled (by decide)

/-- The mask comes after the delay and the hops were computed. -/
theorem exports_differ_sample :
    ¬ SameExports ⟨1, 1, 1, 1⟩ Memory.initial (List.replicate pktBufSize 0) [samplePair] := by
  intro hsame
  exact samplePair_masked ((exports_iff ⟨1, 1, 1, 1⟩ Memory.initial [samplePair] samplePair_twins []
    (List.forall_mem_nil _) Memory.initial Memory.initial (holds_initial _) (holds_initial _) (fun _ => rfl)
    _ _ List.length_replicate (Twins.refl _)).mp hsame)

end IntPlatform.Collector.TimestampMask
