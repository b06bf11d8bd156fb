import IntPlatform.Library.Mealy
import IntPlatform.T4p4s.Path

namespace IntPlatform.T4p4s.SourceSequence

open Library.Formats Library.HeaderValidity Library.Mealy
open HeaderTypes Parsing Controls Switch Effects T4p4s.Path

structure Input where
  arrival : Arrival
  packet : List Byte

/-- What becomes of a frame, and int_header.seq behind configure_source if that ran. -/
structure Passed where
  seq : Option (BitVec 16)
  result : Except ParserError Output

def behindSource (cfg : Config) (s : IngressState) : Headers × Register :=
  let hdr := onIpv4 s.hdr fun h => ipChecksumSub h.totalLen h
  let hdr := onIpv4 hdr fun h => ipChecksumSub (firstWord h) h
  intSource cfg s.reg1 hdr

def isL4 (hdr : Headers) : Bool := hdr.udp.isSome || hdr.tcp.isSome

def configures (cfg : Config) (i : Input) : Bool :=
  match parserImpl i.arrival.md i.packet with
  | .error _ => false
  | .ok p => isL4 p.hdr && cfg.srcEnable

def sourceSeq (cfg : Config) (reg1 : Register) (i : Input) : Option (BitVec 16) :=
  match parserImpl i.arrival.md i.packet with
  | .error _ => none
  | .ok p =>
      if isL4 p.hdr && cfg.srcEnable then
        some (read (behindSource cfg ⟨p.hdr, i.arrival.std, reg1⟩).1.intHeader).seq
      else none

/-- A node with its register. A frame that the parser rejects does not come to it. -/
def node (cfg : Config) : Machine Register Input Passed where
  next reg1 i :=
    match v1Switch cfg reg1 i.arrival i.packet with
    | .error _ => reg1
    | .ok out => out.reg1
  out reg1 i := ⟨sourceSeq cfg reg1 i, v1Switch cfg reg1 i.arrival i.packet⟩

def sequences (passes : List Passed) : List (BitVec 16) := passes.filterMap Passed.seq

theorem byteSwap_byteSwap (v : BitVec 16) : Register.byteSwap (Register.byteSwap v) = v := by
  have hlow : (Register.byteSwap v).extractLsb' 0 8 = v.extractLsb' 8 8 :=
    BitVec.extractLsb'_append_eq_right
  have hhigh : (Register.byteSwap v).extractLsb' 8 8 = v.extractLsb' 0 8 :=
    BitVec.extractLsb'_append_eq_left
  rw [Register.byteSwap, hlow, hhigh]
  exact BitVec.extractLsb'_append_extractLsb'

/-- Under either byte order the second read gives back what was stored. -/
theorem nextSeq_eq (reg1 : Register) :
    nextSeq reg1 = (reg1.content + 1, { reg1 with content := reg1.content + 1 }) := by
  have hread : (reg1.write reg1.read).read = reg1.content := by
    obtain ⟨swapped, content⟩ := reg1
    cases swapped with
    | false => rfl
    | true => exact byteSwap_byteSwap content
  rw [nextSeq, hread]
  rfl

theorem intSource_on (cfg : Config) (reg1 : Register) (hdr : Headers) (h : cfg.srcEnable = true) :
    (read (intSource cfg reg1 hdr).1.intHeader).seq = reg1.content + 1 ∧
      (intSource cfg reg1 hdr).2 = { reg1 with content := reg1.content + 1 } := by
  have hsource : intSource cfg reg1 hdr = configureSource reg1 hdr := if_pos h
  have hnext := nextSeq_eq reg1
  have hreg : (configureSource reg1 hdr).2 = (nextSeq reg1).2 := rfl
  have hseq : (read (configureSource reg1 hdr).1.intHeader).seq = (nextSeq reg1).1 := by
    cases hi : hdr.intHeader <;> simp [configureSource, hi]
  rw [hsource, hreg, hseq, hnext]
  exact ⟨rfl, rfl⟩

theorem ingress_reg1 (cfg : Config) (md : Metadata) (s : IngressState) :
    (ingress cfg md s).reg1 = if isL4 s.hdr then (behindSource cfg s).2 else s.reg1 := by
  rw [ingress, isL4]
  cases s.hdr.udp.isSome <;> cases s.hdr.tcp.isSome <;> rfl

theorem behindSource_on (cfg : Config) (s : IngressState) (h : cfg.srcEnable = true) :
    (read (behindSource cfg s).1.intHeader).seq = s.reg1.content + 1 ∧
      (behindSource cfg s).2 = { s.reg1 with content := s.reg1.content + 1 } :=
  intSource_on cfg s.reg1 _ h

theorem behindSource_off (cfg : Config) (s : IngressState) (h : cfg.srcEnable = false) :
    (behindSource cfg s).2 = s.reg1 := by
  have hoff (hdr : Headers) : intSource cfg s.reg1 hdr = (hdr, s.reg1) := by
    rw [intSource, h]
    rfl
  simp only [behindSource, hoff]

theorem node_step (cfg : Config) (reg1 : Register) (i : Input) :
    ((node cfg).out reg1 i).seq = (if configures cfg i then some (reg1.content + 1) else none) ∧
      (node cfg).next reg1 i =
        if configures cfg i then { reg1 with content := reg1.content + 1 } else reg1 := by
  have hout : ((node cfg).out reg1 i).seq = sourceSeq cfg reg1 i := rfl
  rw [hout]
  cases hp : parserImpl i.arrival.md i.packet with
  | error e =>
      have hcfg : configures cfg i = false := by simp only [configures, hp]
      have hnext : (node cfg).next reg1 i = reg1 := by
        simp only [node, v1Switch, hp]
        rfl
      rw [hcfg, hnext]
      exact ⟨by simp [sourceSeq, hp], rfl⟩
  | ok p =>
      have hcfg : configures cfg i = (isL4 p.hdr && cfg.srcEnable) := by simp only [configures, hp]
      have hseq : sourceSeq cfg reg1 i = if isL4 p.hdr && cfg.srcEnable then
          some (read (behindSource cfg ⟨p.hdr, i.arrival.std, reg1⟩).1.intHeader).seq else none := by
        simp only [sourceSeq, hp]
      have hnext : (node cfg).next reg1 i = (ingress cfg p.md ⟨p.hdr, i.arrival.std, reg1⟩).reg1 := by
        simp only [node, v1Switch, hp]
        rfl
      rw [hcfg, hseq, hnext, ingress_reg1]
      cases isL4 p.hdr with
      | false => exact ⟨rfl, rfl⟩
      | true =>
          cases hsrc : cfg.srcEnable with
          | false => exact ⟨rfl, behindSource_off cfg ⟨p.hdr, i.arrival.std, reg1⟩ hsrc⟩
          | true =>
              obtain ⟨hnumber, hcontent⟩ := behindSource_on cfg ⟨p.hdr, i.arrival.std, reg1⟩ hsrc
              exact ⟨congrArg some hnumber, hcontent⟩

section Run

variable (cfg : Config) (swapped : Bool) (s0 : BitVec 16)

theorem after_eq (inputs : List Input) :
    (node cfg).after ⟨swapped, s0⟩ inputs =
      ⟨swapped, s0 + BitVec.ofNat 16 (inputs.countP (configures cfg))⟩ := by
  induction inputs using List.reverseRecOn with
  | nil =>
      rw [List.countP_nil, BitVec.add_zero]
      rfl
  | append_singleton inputs i ih =>
      rw [Machine.after_concat, (node_step cfg _ i).2, ih, List.countP_append, List.countP_singleton]
      by_cases hc : configures cfg i
      · rw [if_pos hc, if_pos hc, BitVec.ofNat_add, ← BitVec.add_assoc]
        rfl
      · rw [if_neg hc, if_neg hc, Nat.add_zero]

theorem sequences_eq (inputs : List Input) :
    sequences ((node cfg).outputs ⟨swapped, s0⟩ inputs) =
      (List.range (inputs.countP (configures cfg))).map fun k => s0 + BitVec.ofNat 16 (k + 1) := by
  induction inputs using List.reverseRecOn with
  | nil => rfl
  | append_singleton inputs i ih =>
      have hout := (node_step cfg ((node cfg).after ⟨swapped, s0⟩ inputs) i).1
      rw [after_eq] at hout
      rw [Machine.outputs_concat, sequences, List.filterMap_append, ← sequences, ih, List.countP_append,
        List.countP_singleton, after_eq, List.filterMap_cons, hout, List.filterMap_nil]
      by_cases hc : configures cfg i
      · rw [if_pos hc, if_pos hc, List.range_succ, List.map_append, List.map_singleton, BitVec.ofNat_add,
          ← BitVec.add_assoc]
        rfl
      · rw [if_neg hc, if_neg hc, Nat.add_zero, List.append_nil]

end Run

theorem configures_source (cfg : Config) (i : Input) (h : configures cfg i = true) :
    cfg.srcEnable = true := by
  rw [configures] at h
  split at h
  · cases h
  · exact (Bool.and_eq_true_iff.mp h).2

theorem exists_datagram (cfg : Config) (i : Input) (h : configures cfg i = true) :
    ∃ d : Datagram, i.packet = d.frame := by
  rw [configures] at h
  split at h
  · cases h
  · next p hp =>
    rw [← isL4_iff]
    have hl4 := (Bool.and_eq_true_iff.mp h).1
    exact ⟨_, p, hp, Bool.or_eq_true_iff.mp hl4⟩

section Emitted

variable (cfg : Config) (hsrc : cfg.srcEnable = true) (hsink : cfg.sinkEnable = false) (reg1 : Register)

include hsrc

theorem effect_source (a : Arrival) (d : Datagram) :
    (effect cfg reg1 a d.toSegments).Accepted ∧
      ∃ shim header, (effect cfg reg1 a d.toSegments).int = some (shim, header) ∧
        header.seq = reg1.content + 1 := by
  have hseq : (nextSeq reg1).1 = reg1.content + 1 := congrArg Prod.fst (nextSeq_eq reg1)
  rw [effect_sourcing cfg reg1 a d.toSegments hsrc]
  refine ⟨⟨d.accepted.etherType, ?_, iff_of_true rfl rfl, ?_⟩, _, _, rfl, hseq⟩
  · refine d.accepted.protocol.trans ?_
    change _ = (growUdp 24 (clearCsum (growUdp 12 d.l4))).protocol
    cases d.l4 with
    | udp h => rfl
    | tcp h => rfl
  · rintro _ ⟨⟩
    exact ⟨show (3#8 : BitVec 8) ≤ 3 + 6 by decide, rfl⟩

include hsink

theorem emitted_seq (i : Input) (h : configures cfg i = true) :
    ∃ frame reg1', v1Switch cfg reg1 i.arrival i.packet = .ok ⟨some frame, reg1'⟩ ∧
      ∀ md, ∃ p, parserImpl md frame = .ok p ∧
        ∃ header ∈ p.hdr.intHeader, header.seq = reg1.content + 1 := by
  obtain ⟨d, hd⟩ := exists_datagram cfg i h
  obtain ⟨hacc, shim, header, hint, hseq⟩ := effect_source cfg hsrc reg1 i.arrival d
  rw [hd]
  refine ⟨_, _, v1Switch_frame cfg reg1 i.arrival d.toSegments d.accepted hsink, ?_⟩
  intro md
  refine ⟨_, parserImpl_frame md _ hacc, header, ?_, hseq⟩
  exact congrArg (Option.map Prod.snd) hint

end Emitted

/-- Under either byte order the k-th frame that configure_source runs for has the
number s0 + k, which it also carries out of a node that is no sink. No other
frame changes the register. -/
theorem sequence_counts (cfg : Config) (swapped : Bool) (s0 : BitVec 16) (inputs : List Input) :
    sequences ((node cfg).outputs ⟨swapped, s0⟩ inputs) =
        (List.range (inputs.countP (configures cfg))).map (fun k => s0 + BitVec.ofNat 16 (k + 1)) ∧
      (∀ i, configures cfg i = false → ∀ reg1, (node cfg).next reg1 i = reg1) ∧
      (cfg.sinkEnable = false →
        ∀ pass ∈ (node cfg).outputs ⟨swapped, s0⟩ inputs, ∀ seq ∈ pass.seq,
          ∃ frame reg1', pass.result = .ok ⟨some frame, reg1'⟩ ∧
            ∀ md, ∃ p, parserImpl md frame = .ok p ∧ ∃ header ∈ p.hdr.intHeader, header.seq = seq) := by
  refine ⟨sequences_eq cfg swapped s0 inputs, ?_, ?_⟩
  · intro i hc reg1
    rw [(node_step cfg reg1 i).2, hc]
    rfl
  · intro hsink pass hpass seq hseq
    obtain ⟨reg1, i, -, rfl⟩ := Machine.mem_outputs _ _ _ _ hpass
    rw [(node_step cfg reg1 i).1] at hseq
    split at hseq
    · next hc =>
      cases hseq
      exact emitted_seq cfg (configures_source cfg i hc) hsink reg1 i hc
    · cases hseq

def sampleInputs : List Input :=
  [⟨sampleSource.arrival, sampleDatagram.frame⟩, ⟨sampleSource.arrival, []⟩,
    ⟨sampleSource.arrival, sampleDatagram.frame⟩]

theorem sequence_counts_sample :
    sequences ((node sampleSource.cfg).outputs ⟨true, 0x00fe⟩ sampleInputs) = [0x00ff, 0x0100] := by
  have hcount : sampleInputs.countP (configures sampleSource.cfg) = 2 := by decide
  rw [(sequence_counts sampleSource.cfg true 0x00fe sampleInputs).1, hcount]
  rfl

end IntPlatform.T4p4s.SourceSequence
