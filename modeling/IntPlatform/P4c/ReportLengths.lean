import IntPlatform.P4c.IntRemoval

namespace IntPlatform.P4c.ReportLengths

open Library.Formats Library.HeaderValidity Library.MatchAction
open HeaderTypes Parsing Ingress Deparser NodeFields Effects Accounting Ipv4Checksum SinkEffect IntRemoval

def actions003 : List InstAction := table003.entries.map Prod.snd

def actions407 : List InstAction := table407.entries.map Prod.snd

structure Declared (t : Tables) : Prop where
  tbIntInst0003 : t.tbIntInst0003.Over actions003
  tbIntInst0407 : t.tbIntInst0407.Over actions407

theorem selected_mem (t : Table (BitVec 16) InstAction) (actions : List InstAction) (h : t.Over actions)
    (hmiss : ⟨[], 0⟩ ∈ actions) (key : BitVec 16) : selected t key ∈ actions := by
  rw [selected]
  cases hs : t.select key with
  | none => exact hmiss
  | some a => exact t.select_mem actions h key a hs

/-- The declared actions count the words of their fields, except that the
egress timestamp may be counted twice. -/
theorem words_declared (a b : InstAction) (ha : a ∈ actions003) (hb : b ∈ actions407) :
    a.words + b.words = chosenWords (fun f => a.fields.contains f || b.fields.contains f) ∨
      a.words + b.words = chosenWords (fun f => a.fields.contains f || b.fields.contains f) + 2 := by
  have hall : ∀ a ∈ actions003, ∀ b ∈ actions407,
      a.words + b.words = chosenWords (fun f => a.fields.contains f || b.fields.contains f) ∨
        a.words + b.words = chosenWords (fun f => a.fields.contains f || b.fields.contains f) + 2 := by
    decide +kernel
  exact hall a ha b hb

theorem growth_declared (hop : Hop) (hdecl : Declared hop.tables) (h : TransitIntHeader) :
    (growth hop h).words = chosenWords (growth hop h).fields ∨
      (growth hop h).words = chosenWords (growth hop h).fields + 2 := by
  rw [growth]
  split
  · exact words_declared _ _
      (selected_mem _ _ hdecl.tbIntInst0003 (by decide) _) (selected_mem _ _ hdecl.tbIntInst0407 (by decide) _)
  · exact .inl rfl

theorem Outer_bytes_length (o : Outer) : o.bytes.length = 68 := by
  have heth : (ethernetCodec.encode o.ethernet).length = 14 := ethernetCodec.encode_length _
  have hip : (ipv4Codec.encode o.ipv4).length = 20 := ipv4Codec.encode_length _
  have hudp : (udpCodec.encode o.udp).length = 8 := udpCodec.encode_length _
  have hfix : (intReportFixedHeaderCodec.encode o.fixedHeader).length = 26 :=
    intReportFixedHeaderCodec.encode_length _
  simp only [Outer.bytes, List.length_append, heth, hip, hudp, hfix]

theorem totalLen_outer (o : Outer) (inner : List Byte) :
    totalLen (o.bytes ++ inner) = o.ipv4.totalLen := be16.decode_encode _

theorem outerLen_toNat (x : BitVec 16) (n : Nat) :
    (outerLen (x + BitVec.ofNat 16 n)).toNat = (x.toNat + n + 64) % 65536 := by
  have hconst : outerLen (x + BitVec.ofNat 16 n) =
      x + BitVec.ofNat 16 n + 14#16 + 20#16 + 8#16 + 22#16 := rfl
  rw [hconst]
  simp only [BitVec.toNat_add, BitVec.toNat_ofNat]
  omega

section Report

variable (hop : Hop) (hsink : IsSink hop) (hdecl : Declared hop.tables) (d : Datagram) (u : Udp)
  (shim : Intl4Shim) (h : TransitIntHeader) (hl4 : d.l4 = .udp u) (hint : d.int = some (shim, h))

include hsink hl4 hint

theorem inner_length :
    (deparsed false (hop.laden d.toSegments)).emitted.frame.length =
      d.frame.length + 4 * chosenWords (growth hop h).fields := by
  obtain ⟨shim', h', -, hl⟩ := laden_grown hop hsink d.toSegments shim h hint
  rw [hl, hl4, udpFrame_length _ _ rfl, udpFrame_length d.toSegments u hl4, hint]
  change 42 + 20 + (emitNode (chosen (hop.values d.toSegments) (growth hop h).fields) ++
    d.payload).length = 42 + 20 + d.payload.length + _
  rw [emitNode_chosen, List.length_append, chosenBytes_length]
  omega

include hdecl

theorem totalLen_wrong (htotal : (totalLen d.frame).toNat = d.frame.length - 14) (r : ReportTarget)
    (hsel : hop.tables.tableSinkConfig.select u.srcPort = some (.sendReport r)) (out : List Byte)
    (hout : hop.forward d.frame = some out) : (totalLen out).toNat ≠ out.length - 14 := by
  have hf := forward_reported hop hsink d.toSegments u shim h hl4 hint d.accepted _ hsel r rfl
  have hlen := inner_length hop hsink d u shim h hl4 hint
  have hw := growth_declared hop hdecl h
  rw [totalLen_frame] at htotal
  cases hf.symm.trans hout
  have hmin : 14 ≤ d.frame.length := by
    rw [udpFrame_length d.toSegments u hl4]
    omega
  rw [totalLen_outer, outer, growthBytes, outerLen_toNat, List.length_append, Outer_bytes_length, hlen]
  omega

/-- No report is well formed: the constant for the length of the report header
is four bytes short, which no insertion makes up for. -/
theorem report_not_wellFormed (htotal : (totalLen d.frame).toNat = d.frame.length - 14)
    (r : ReportTarget) (hsel : hop.tables.tableSinkConfig.select u.srcPort = some (.sendReport r)) :
    ¬ ∃ out, hop.forward d.frame = some out ∧ WellFormed out := by
  rintro ⟨out, hout, hw⟩
  exact totalLen_wrong hop hsink hdecl d u shim h hl4 hint htotal r hsel out hout hw.totalLen

end Report

def sampleTarget : ReportTarget :=
  ⟨0x020000000003, 0x0a000003, 0x020000000004, 0x0a000004, 17000⟩

theorem sampleSink_declared (act : SinkAction) : Declared (sampleSink act).tables :=
  ⟨⟨fun _ he => List.mem_map_of_mem he, by rintro a ⟨⟩⟩,
    ⟨fun _ he => List.mem_map_of_mem he, by rintro a ⟨⟩⟩⟩

theorem report_not_wellFormed_sample :
    ¬ ∃ out, (sampleSink (.sendReport sampleTarget)).forward
        (sampleCarrying (sampleHeader 0x00cc) 0).frame = some out ∧ WellFormed out :=
  report_not_wellFormed (sampleSink (.sendReport sampleTarget)) ⟨rfl, rfl⟩ (sampleSink_declared _)
    (sampleCarrying (sampleHeader 0x00cc) 0) ⟨5000, 6000, 32, 0⟩ ⟨1, 0, 5, 0, 0, 0⟩
    (sampleHeader 0x00cc) rfl rfl (by decide +kernel) sampleTarget rfl

theorem report_too_long :
    (totalLen (sampleCarrying (sampleHeader 0) 0).frame).toNat =
        (sampleCarrying (sampleHeader 0) 0).frame.length - 14 ∧
      ¬ ∃ out, (sampleSink (.sendReport sampleTarget)).forward
          (sampleCarrying (sampleHeader 0) 0).frame = some out ∧ WellFormed out := by
  have htotal : (totalLen (sampleCarrying (sampleHeader 0) 0).frame).toNat =
      (sampleCarrying (sampleHeader 0) 0).frame.length - 14 := by
    decide +kernel
  refine ⟨htotal, ?_⟩
  rintro ⟨out, hout, hw⟩
  exact totalLen_wrong (sampleSink (.sendReport sampleTarget)) ⟨rfl, rfl⟩ (sampleSink_declared _)
    (sampleCarrying (sampleHeader 0) 0) ⟨5000, 6000, 32, 0⟩ ⟨1, 0, 5, 0, 0, 0⟩ (sampleHeader 0) rfl rfl
    htotal sampleTarget rfl out hout hw.totalLen

end IntPlatform.P4c.ReportLengths
