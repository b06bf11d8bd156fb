import IntPlatform.Library.Mealy
import IntPlatform.P4c.SinkEffect

namespace IntPlatform.P4c.ReportSequence

open Library.Formats Library.HeaderValidity Library.MatchAction Library.Mealy
open HeaderTypes Parsing Ingress Deparser NodeFields Effects SinkEffect

structure Input where
  tables : Tables
  arrival : Arrival
  packet : List Byte

/-- A node with its register of report sequence numbers. A packet that the
parser rejects does not come to it. -/
def node (p : Program) : Machine (BitVec 32) Input (Option Output) where
  next seq i := ((ingressPipeline p i.tables seq i.arrival i.packet).map Output.reportSeqNum).getD seq
  out seq i := ingressPipeline p i.tables seq i.arrival i.packet

def beforeSink (p : Program) (t : Tables) (istd : InputMetadata) (s : State) : State :=
  let s := { s with metadata := { s.metadata with
    ingressTstamp := istd.ingressTimestamp
    ingressPort := istd.ingressPort } }
  let s :=
    if p.source then
      t.tbIntSource.apply (SourceAction.run p.constants)
        ((read s.hdr.ipv4).srcAddr, (read s.hdr.ipv4).dstAddr) s
    else s
  let s := t.tbForward.apply ForwardAction.run (read s.hdr.ethernet).dstAddr s
  let s := t.tbPortForward.apply send s.egressPort s
  transitPart p t s

theorem myIngress_eq (p : Program) (t : Tables) (istd : InputMetadata) (s : State) :
    myIngress p t istd s =
      if s.hdr.udp.isSome || s.hdr.tcp.isSome then
        if p.sink then sinkPart t istd (beforeSink p t istd s) else beforeSink p t istd s
      else s := rfl

def reportTo (p : Program) (t : Tables) (s : State) : Option ReportTarget :=
  if p.sink && s.hdr.transitIntHeader.isSome then
    (t.tableSinkConfig.select (read s.hdr.udp).srcPort).bind SinkAction.target
  else none

/-- The node sends a report about the packet. What is in the register makes no
difference. -/
def reports (p : Program) (i : Input) : Bool :=
  match myIngressParser i.packet with
  | none => false
  | some r => (r.hdr.udp.isSome || r.hdr.tcp.isSome) &&
      (reportTo p i.tables (beforeSink p i.tables i.arrival.istd
        ⟨r.hdr, r.metadata, i.arrival.egressPort, 0⟩)).isSome

section Keeps

def withSeq (seq : BitVec 32) (s : State) : State := { s with reportSeqNum := seq }

/-- A part of the control that neither reads nor writes the register. -/
def Keeps (f : State → State) : Prop := ∀ seq s, f (withSeq seq s) = withSeq seq (f s)

theorem Keeps.reportSeqNum {f : State → State} (h : Keeps f) (s : State) :
    (f s).reportSeqNum = s.reportSeqNum := by
  have hs : f s = withSeq s.reportSeqNum (f s) := h s.reportSeqNum s
  rw [hs]
  rfl

theorem Keeps.comp {f g : State → State} (hf : Keeps f) (hg : Keeps g) : Keeps fun s => f (g s) := by
  intro seq s
  exact (congrArg f (hg seq s)).trans (hf seq (g s))

theorem Keeps.cond {f g : State → State} (c : State → Prop) [DecidablePred c]
    (hc : ∀ seq s, c (withSeq seq s) ↔ c s) (hf : Keeps f) (hg : Keeps g) :
    Keeps fun s => if c s then f s else g s := by
  intro seq s
  by_cases h : c s
  · simp only [if_pos h, if_pos ((hc seq s).mpr h)]
    exact hf seq s
  · simp only [if_neg h, if_neg (mt (hc seq s).mp h)]
    exact hg seq s

theorem keeps_id : Keeps fun s => s := fun _ _ => rfl

theorem keeps_apply {κ α : Type} [BEq κ] (t : Table κ α) (run : α → State → State)
    (hrun : ∀ a, Keeps (run a)) (key : State → κ) (hkey : ∀ seq s, key (withSeq seq s) = key s) :
    Keeps fun s => t.apply run (key s) s := by
  intro seq s
  simp only [Table.apply, hkey]
  cases t.select (key s) with
  | none => rfl
  | some a => exact hrun a seq s

theorem keeps_elim {α : Type} (o : Option α) (run : α → State → State) (hrun : ∀ a, Keeps (run a)) :
    Keeps fun s => o.elim s (run · s) := by
  cases o with
  | none => exact keeps_id
  | some a => exact hrun a

theorem keeps_source (c : Constants) (a : SourceAction) : Keeps (a.run c) := by
  cases a <;> exact fun _ _ => rfl

theorem keeps_forward (a : ForwardAction) : Keeps a.run := by
  cases a <;> exact fun _ _ => rfl

theorem keeps_transitAction (a : TransitAction) : Keeps a.run := by
  cases a <;> exact fun _ _ => rfl

theorem keeps_intSetHeader (f : Field) : Keeps fun s => intSetHeader s f := by
  cases f <;> exact fun _ _ => rfl

theorem keeps_instAction (a : InstAction) : Keeps a.run := by
  have hfold (fs : List Field) : Keeps fun s => fs.foldl intSetHeader s := by
    induction fs with
    | nil => exact keeps_id
    | cons f fs ih => exact ih.comp (keeps_intSetHeader f)
  intro seq s
  simp only [InstAction.run, hfold a.fields seq s]
  rfl

theorem keeps_addMetadata (t : Tables) : Keeps (addMetadata t) := by
  have hmask (mask : BitVec 16) : Keeps (setMask mask) := fun _ _ => rfl
  have h3 := keeps_apply t.tbIntInst0003 InstAction.run keeps_instAction
    (fun s => s.metadata.mask) fun _ _ => rfl
  have h7 := keeps_apply t.tbIntInst0407 InstAction.run keeps_instAction
    (fun s => s.metadata.mask) fun _ _ => rfl
  exact h7.comp ((hmask 0x000f).comp (h3.comp (hmask 0x00f0)))

theorem keeps_updateLengths : Keeps updateLengths := by
  have hudp := Keeps.cond (fun s => s.hdr.udp.isSome = true) (fun _ _ => Iff.rfl)
    (f := intUpdateUdpAc) (fun _ _ => rfl) keeps_id
  have hshim := Keeps.cond (fun s => s.hdr.intShim.isSome = true) (fun _ _ => Iff.rfl)
    (f := intUpdateShimAc) (fun _ _ => rfl) keeps_id
  exact hshim.comp (hudp.comp fun _ _ => rfl)

theorem keeps_transit (t : Tables) : Keeps (transit t) :=
  keeps_updateLengths.comp ((keeps_addMetadata t).comp
    ((keeps_elim t.tbIntTransit TransitAction.run keeps_transitAction).comp
      (show Keeps intHopCntIncrement from fun _ _ => rfl)))

theorem keeps_transitPart (p : Program) (t : Tables) : Keeps (transitPart p t) := by
  have hbranch := Keeps.cond
    (fun s => (read s.hdr.transitIntHeader).hopInfo ≠ exhausted p.constants) (fun _ _ => Iff.rfl)
    (keeps_transit t) (show Keeps intHopExceeded from fun _ _ => rfl)
  have hmac := keeps_elim p.mac testUpdateAddresses fun _ _ _ => rfl
  have hwhole := Keeps.cond (fun s => s.hdr.transitIntHeader.isSome = true) (fun _ _ => Iff.rfl)
    (hmac.comp hbranch) keeps_id
  exact hwhole.comp (show Keeps saveOld from fun _ _ => rfl)

theorem keeps_beforeSink (p : Program) (t : Tables) (istd : InputMetadata) :
    Keeps (beforeSink p t istd) := by
  have hstart : Keeps fun s => { s with metadata := { s.metadata with
      ingressTstamp := istd.ingressTimestamp
      ingressPort := istd.ingressPort } } := fun _ _ => rfl
  have hsource := Keeps.cond (fun _ => p.source = true) (fun _ _ => Iff.rfl)
    (keeps_apply t.tbIntSource (SourceAction.run p.constants) (keeps_source p.constants)
      (fun s => ((read s.hdr.ipv4).srcAddr, (read s.hdr.ipv4).dstAddr)) fun _ _ => rfl) keeps_id
  have hforward := keeps_apply t.tbForward ForwardAction.run keeps_forward
    (fun s => (read s.hdr.ethernet).dstAddr) fun _ _ => rfl
  have hport := keeps_apply t.tbPortForward send (fun _ _ _ => rfl)
    (fun s => s.egressPort) fun _ _ => rfl
  exact (keeps_transitPart p t).comp (hport.comp (hforward.comp (hsource.comp hstart)))

end Keeps

section Sink

variable (p : Program) (t : Tables) (istd : InputMetadata) (s : State)

theorem reportTo_some {r : ReportTarget} (h : reportTo p t s = some r) :
    p.sink = true ∧ s.hdr.transitIntHeader.isSome = true ∧
      ∃ md, sinkPart t istd s = sendReport istd r { s with metadata := md } := by
  rw [reportTo] at h
  split at h
  · next hc =>
      obtain ⟨hsink, hint⟩ := Bool.and_eq_true_iff.mp hc
      obtain ⟨act, hsel, hact⟩ := Option.bind_eq_some_iff.mp h
      refine ⟨hsink, hint, { s.metadata with remove := 0 }, ?_⟩
      simp only [sinkPart, hint, ↓reduceIte, Table.apply, hsel, Option.elim_some]
      exact SinkAction.run_target act r hact istd _
  · cases h

theorem reportTo_withSeq (seq : BitVec 32) : reportTo p t (withSeq seq s) = reportTo p t s := rfl

theorem reportTo_none (hsink : p.sink = true) (h : reportTo p t s = none) :
    (sinkPart t istd s).reportSeqNum = s.reportSeqNum := by
  rw [reportTo, hsink, Bool.true_and] at h
  cases hint : s.hdr.transitIntHeader.isSome with
  | false => simp only [sinkPart, hint, Bool.false_eq_true, ↓reduceIte]
  | true =>
      rw [hint, if_pos rfl] at h
      simp only [sinkPart, hint, ↓reduceIte, Table.apply]
      cases hsel : t.tableSinkConfig.select (read s.hdr.udp).srcPort with
      | none => rfl
      | some act =>
          rw [hsel, Option.bind_some] at h
          cases act with
          | sendReport r => cases h
          | removeInt => rfl
          | defAction => cases h

theorem deparser_reports (hdr : Headers) (o : Outer) (payload : List Byte) (hsink : p.sink = true)
    (hint : hdr.transitIntHeader.isSome = true) (heth : hdr.reportEthernet = some o.ethernet)
    (hip : hdr.reportIpv4 = some o.ipv4) (hudp : hdr.reportUdp = some o.udp)
    (hfixed : hdr.reportFixedHeader = some o.fixedHeader) :
    ∃ rest, myIngressDeparser p hdr payload = o.bytes ++ rest := by
  have hreport : emitReport hdr = o.bytes := by
    rw [emitReport, heth, hip, hudp, hfixed]
    rfl
  have hvalid (hdr' : Headers) : (udpChecksum p.source hdr').transitIntHeader.isSome =
      hdr'.transitIntHeader.isSome := by
    rw [udpChecksum]
    cases p.source with
    | false => rfl
    | true => exact Option.isSome_map
  have hsame (hdr' : Headers) : emitReport (udpChecksum p.source hdr') = emitReport hdr' := by
    rw [udpChecksum]
    cases p.source <;> rfl
  simp only [myIngressDeparser, hvalid, hint, hsink, Bool.and_self, ↓reduceIte, hsame, List.append_assoc]
  exact ⟨_, congrArg (· ++ _) hreport⟩

end Sink

/-- Each report takes the number in the register, and no other packet changes it. -/
theorem node_step (p : Program) (seq : BitVec 32) (i : Input) :
    (node p).next seq i = (if reports p i then seq + 1 else seq) ∧
      (reports p i = true → ∃ (o : Outer) (rest : List Byte),
        ((node p).out seq i).map Output.frame = some (o.bytes ++ rest) ∧
          o.fixedHeader.seqNum = seq ∧
          o.fixedHeader.ingressTstamp = i.arrival.istd.ingressTimestamp) := by
  have hnext : (node p).next seq i =
      ((ingressPipeline p i.tables seq i.arrival i.packet).map Output.reportSeqNum).getD seq := rfl
  have hout : (node p).out seq i = ingressPipeline p i.tables seq i.arrival i.packet := rfl
  rw [hnext, hout]
  cases hparse : myIngressParser i.packet with
  | none =>
      have hreports : reports p i = false := by rw [reports, hparse]
      have hpipeline : ingressPipeline p i.tables seq i.arrival i.packet = none := by
        rw [ingressPipeline, hparse]
        rfl
      rw [hreports, hpipeline]
      exact ⟨rfl, fun h => absurd h Bool.false_ne_true⟩
  | some r =>
      have hpipeline : ingressPipeline p i.tables seq i.arrival i.packet =
          let s := myIngress p i.tables i.arrival.istd ⟨r.hdr, r.metadata, i.arrival.egressPort, seq⟩
          some ⟨myIngressDeparser p s.hdr r.rest, s.egressPort, s.reportSeqNum⟩ := by
        rw [ingressPipeline, hparse]
        rfl
      have hbefore : beforeSink p i.tables i.arrival.istd
          ⟨r.hdr, r.metadata, i.arrival.egressPort, seq⟩ =
          withSeq seq (beforeSink p i.tables i.arrival.istd
            ⟨r.hdr, r.metadata, i.arrival.egressPort, 0⟩) :=
        keeps_beforeSink p i.tables i.arrival.istd seq ⟨r.hdr, r.metadata, i.arrival.egressPort, 0⟩
      have hreports : reports p i = ((r.hdr.udp.isSome || r.hdr.tcp.isSome) &&
          (reportTo p i.tables (withSeq seq (beforeSink p i.tables i.arrival.istd
            ⟨r.hdr, r.metadata, i.arrival.egressPort, 0⟩))).isSome) := by
        rw [reports, hparse, reportTo_withSeq]
      rw [hpipeline, myIngress_eq, hreports, hbefore]
      generalize beforeSink p i.tables i.arrival.istd
        ⟨r.hdr, r.metadata, i.arrival.egressPort, 0⟩ = s
      dsimp only
      cases hl4 : r.hdr.udp.isSome || r.hdr.tcp.isSome with
      | false => exact ⟨rfl, fun h => absurd h Bool.false_ne_true⟩
      | true =>
          rw [Bool.true_and, if_pos rfl]
          cases hto : reportTo p i.tables (withSeq seq s) with
          | some target =>
              obtain ⟨hsink, hint, md, hpart⟩ := reportTo_some p i.tables i.arrival.istd _ hto
              rw [if_pos hsink, hpart]
              refine ⟨rfl, ?_⟩
              intro _
              obtain ⟨rest, hrest⟩ := deparser_reports p
                (sendReport i.arrival.istd target { withSeq seq s with metadata := md }).hdr
                ⟨_, _, _, _⟩ r.rest hsink hint rfl rfl rfl rfl
              exact ⟨_, rest, congrArg some hrest, rfl, rfl⟩
          | none =>
              refine ⟨?_, fun h => absurd h Bool.false_ne_true⟩
              cases hsink : p.sink with
              | false => rfl
              | true =>
                  have hkept := reportTo_none p i.tables i.arrival.istd _ hsink hto
                  simp only [↓reduceIte, Option.map_some, Option.getD_some, hkept]
                  rfl

theorem iterate_succ (seq : BitVec 32) (k : Nat) :
    (fun x : BitVec 32 => x + 1)^[k] seq = seq + BitVec.ofNat 32 k := by
  induction k with
  | zero => exact (BitVec.add_zero seq).symm
  | succ k ih =>
      rw [Function.iterate_succ_apply', ih, BitVec.ofNat_add, BitVec.add_assoc]
      rfl

/-- In every run, over any packets and with tables that may change on the way,
the reports are numbered one after the other. -/
theorem reports_numbered (p : Program) (seq0 : BitVec 32) (inputs : List Input) :
    (node p).after seq0 inputs = seq0 + BitVec.ofNat 32 (inputs.countP (reports p)) ∧
      ∀ pre i post, inputs = pre ++ i :: post → reports p i = true → ∃ (o : Outer) (rest : List Byte),
        ((node p).outputs seq0 inputs)[pre.length]?.map (Option.map Output.frame) =
            some (some (o.bytes ++ rest)) ∧
          o.fixedHeader.seqNum = seq0 + BitVec.ofNat 32 (pre.countP (reports p)) ∧
          o.fixedHeader.ingressTstamp = i.arrival.istd.ingressTimestamp := by
  have hafter (is : List Input) :
      (node p).after seq0 is = seq0 + BitVec.ofNat 32 (is.countP (reports p)) := by
    rw [(node p).after_iterate (reports p) (· + 1) fun seq i => (node_step p seq i).1, iterate_succ]
  refine ⟨hafter inputs, ?_⟩
  rintro pre i post rfl hi
  obtain ⟨o, rest, hout, hnumber, htstamp⟩ := (node_step p ((node p).after seq0 pre) i).2 hi
  refine ⟨o, rest, ?_, hnumber.trans (hafter pre), htstamp⟩
  have hlen : pre.length = ((node p).outputs seq0 pre).length := ((node p).outputs_length seq0 pre).symm
  rw [Machine.outputs_append, hlen, List.getElem?_append_right (Nat.le_refl _), Nat.sub_self,
    Machine.outputs, List.getElem?_cons_zero, Option.map_some, hout]

def sampleProgram : Program := ⟨sampleConstants, false, true, none⟩

def sampleInput (d : Datagram) : Input := ⟨sampleTables .defaultConf, ⟨⟨1, 100⟩, 0⟩, d.frame⟩

def sampleInputs : List Input :=
  [sampleInput (sampleCarrying ⟨1, 0, 0, 0, 0, 0x0604, 0x00cc, 0⟩ 0), sampleInput sampleDatagram,
    sampleInput (sampleCarrying ⟨1, 0, 0, 0, 0, 0x0603, 0x00cc, 0⟩ 0)]

/-- Two reports take the numbers 7 and 8, with a packet without INT between them. -/
theorem reports_numbered_sample :
    (node sampleProgram).after 7 sampleInputs = 9 ∧
      (∃ (o : Outer) (rest : List Byte),
        ((node sampleProgram).outputs 7 sampleInputs)[0]?.map (Option.map Output.frame) =
          some (some (o.bytes ++ rest)) ∧ o.fixedHeader.seqNum = 7) ∧
      ∃ (o : Outer) (rest : List Byte),
        ((node sampleProgram).outputs 7 sampleInputs)[2]?.map (Option.map Output.frame) =
          some (some (o.bytes ++ rest)) ∧ o.fixedHeader.seqNum = 8 := by
  obtain ⟨hafter, hnumbers⟩ := reports_numbered sampleProgram 7 sampleInputs
  refine ⟨hafter.trans (by decide +kernel), ?_, ?_⟩
  · obtain ⟨o, rest, hout, hseq, -⟩ := hnumbers [] _ _ rfl (by decide +kernel)
    exact ⟨o, rest, hout, hseq⟩
  · obtain ⟨o, rest, hout, hseq, -⟩ := hnumbers (sampleInputs.take 2) _ _ rfl (by decide +kernel)
    exact ⟨o, rest, hout, hseq.trans (by decide +kernel)⟩

end IntPlatform.P4c.ReportSequence
