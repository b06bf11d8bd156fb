import IntPlatform.P4c.NodeFields

namespace IntPlatform.P4c.Effects

open Library.Formats Library.HeaderValidity Library.MatchAction
open HeaderTypes Parsing Ingress Deparser NodeFields

/-- The parts of a frame inside the program: with the metadata headers of this
node, which are emitted in front of the payload, and the checksum helper. -/
structure Laden extends Segments where
  node : NodeMetadata
  ckHelper : Header CkHelper
deriving DecidableEq, Repr

namespace Laden

def headers (l : Laden) : Headers := { l.toSegments.headers with node := l.node, ckHelper := l.ckHelper }

def emitted (l : Laden) : Segments := { l.toSegments with payload := emitNode l.node ++ l.payload }

end Laden

def growUdp (n : BitVec 16) : Transport → Transport
  | .udp h => .udp { h with len := h.len + n }
  | .tcp h => .tcp h

def withCsum (csum : BitVec 16) : Transport → Transport
  | .udp h => .udp { h with csum := csum }
  | .tcp h => .tcp h

def onHeader (f : TransitIntHeader → TransitIntHeader) (l : Laden) : Laden :=
  { l with int := l.int.map fun r => (r.1, f r.2) }

def sourceShim (tos : BitVec 8) (h : Intl4Shim) : Intl4Shim :=
  { h with intType := 1, len := 5, dscp := tos }

def sourceHeader (hop mask : BitVec 16) (h : TransitIntHeader) : TransitIntHeader :=
  { h with
    ver := 1
    rep := 0
    cE := 0
    mRsvd1 := 0
    rsvd2 := 0
    rsvd3 := 0
    hopInfo := hop
    instructionMask := mask }

def sourced (hop mask : BitVec 16) (s : Segments) : Laden where
  ethernet := s.ethernet
  ipv4 := { s.ipv4 with dscp := 0x20, totalLen := s.ipv4.totalLen + 20 }
  l4 := growUdp 20 s.l4
  int := some (sourceShim s.ipv4.dscp (read (s.int.map Prod.fst)),
    sourceHeader hop mask (read (s.int.map Prod.snd)))
  payload := s.payload
  node := NodeMetadata.invalid
  ckHelper := some ⟨(read s.l4.udp?).len, 0, 0, 0, s.ipv4.totalLen, 0x20, 0x11⟩

def params (c : Constants) : SourceAction → BitVec 16 × BitVec 16
  | .configureSource hop mask => (hop, mask)
  | .defaultConf => (c.hopInfo, c.instructionMaskComplet)

def sourceAction (p : Program) (t : Tables) (s : Segments) : Option SourceAction :=
  if p.source then t.tbIntSource.select (s.ipv4.srcAddr, s.ipv4.dstAddr) else none

def sourcePart (p : Program) (t : Tables) (s : Segments) : Laden :=
  match sourceAction p t s with
  | none => { s with node := NodeMetadata.invalid, ckHelper := none }
  | some a => sourced (params p.constants a).1 (params p.constants a).2 s

def saved (l : Laden) : Laden :=
  { l with
    ckHelper := some { (read l.ckHelper) with
      oldUdpLen := (read l.l4.udp?).len
      oldShimLen := (read (l.int.map Prod.fst)).len
      oldHop := (read (l.int.map Prod.snd)).hopInfo
      oldTotalLen := l.ipv4.totalLen } }

def forwardPort (a : Arrival) (t : Tables) (dst : BitVec 48) : BitVec 16 :=
  match t.tbForward.select dst with
  | none => a.egressPort
  | some (.sendToCpu port) | some (.sendToPortCustom port) => port

def egressPort (a : Arrival) (t : Tables) (dst : BitVec 48) : BitVec 16 :=
  (t.tbPortForward.select (forwardPort a t dst)).getD (forwardPort a t dst)

def switchId : Option TransitAction → BitVec 32
  | none => 0
  | some (.configureTransit switchId _) => switchId
  | some .defaultTransitConf => 9

/-- The switch id that a node knows behind the transit part: only an insertion
asks the table for it. -/
def knownSwitchId (p : Program) (t : Tables) : Option (Intl4Shim × TransitIntHeader) → BitVec 32
  | none => 0
  | some (_, h) => if h.hopInfo ≠ exhausted p.constants then switchId t.tbIntTransit else 0

def nodeValues (t : Tables) (a : Arrival) (dst : BitVec 48) : NodeValues :=
  ⟨switchId t.tbIntTransit, a.istd.ingressPort, egressPort a t dst, a.istd.ingressTimestamp⟩

structure Insertion where
  fields : Field → Bool
  words : Nat

def insertion (t : Tables) (mask : BitVec 16) : Insertion where
  fields f := (selected t.tbIntInst0003 (mask &&& 0x00f0#16)).fields.contains f ||
    (selected t.tbIntInst0407 (mask &&& 0x000f#16)).fields.contains f
  words := (selected t.tbIntInst0003 (mask &&& 0x00f0#16)).words +
    (selected t.tbIntInst0407 (mask &&& 0x000f#16)).words

def inserted (v : NodeValues) (i : Insertion) (l : Laden) : Laden :=
  { l with
    ipv4 := { l.ipv4 with totalLen := l.ipv4.totalLen + BitVec.ofNat 16 (i.words * 4) }
    l4 := growUdp (BitVec.ofNat 16 (i.words * 4)) l.l4
    int := l.int.map fun r =>
      ({ r.1 with len := r.1.len + BitVec.ofNat 8 i.words }, { r.2 with hopInfo := r.2.hopInfo - 1 })
    node := chosen v i.fields }

def exceed (h : TransitIntHeader) : TransitIntHeader :=
  if h.cE = 0x0000 ∨ h.cE = 0x0100 then { h with cE := h.cE + 0x0001 } else h

def withMac (mac : Option (BitVec 48)) (l : Laden) : Laden :=
  { l with ethernet := { l.ethernet with dstAddr := mac.getD l.ethernet.dstAddr } }

def transited (p : Program) (t : Tables) (a : Arrival) (l : Laden) : Laden :=
  match l.int with
  | none => l
  | some (_, h) =>
      withMac p.mac <|
        if h.hopInfo ≠ exhausted p.constants then
          inserted (nodeValues t a l.ethernet.dstAddr) (insertion t h.instructionMask) l
        else onHeader exceed l

def deparsed (source : Bool) (l : Laden) : Laden :=
  { l with
    ipv4 := { l.ipv4 with hdrChecksum := ipv4Checksum source l.headers }
    l4 := withCsum (read (udpChecksum source l.headers).udp).csum l.l4
    int := if source then
        l.int.map fun r => (r.1, { r.2 with rsvd3 := (openUdp l.headers).get })
      else l.int }

/-- One node on a path: its program and tables, its register, and what its
target supplies when the packet passes. -/
structure Hop where
  program : Program
  tables : Tables
  reportSeqNum : BitVec 32
  arrival : Arrival
deriving Repr

namespace Hop

def forward (hop : Hop) (frame : List Byte) : Option (List Byte) :=
  (ingressPipeline hop.program hop.tables hop.reportSeqNum hop.arrival frame).map Output.frame

def configures (hop : Hop) (s : Segments) : Option (BitVec 16 × BitVec 16) :=
  (sourceAction hop.program hop.tables s).map (params hop.program.constants)

def laden (hop : Hop) (s : Segments) : Laden :=
  transited hop.program hop.tables hop.arrival (saved (sourcePart hop.program hop.tables s))

def effect (hop : Hop) (s : Segments) : Segments := (deparsed hop.program.source (hop.laden s)).emitted

def hdrChecksum (hop : Hop) (s : Segments) : BitVec 16 :=
  ipv4Checksum hop.program.source (hop.laden s).headers

def rsvd3 (hop : Hop) (s : Segments) : BitVec 16 := (openUdp (hop.laden s).headers).get

def csum (hop : Hop) (s : Segments) : BitVec 16 :=
  (read (udpChecksum hop.program.source (hop.laden s).headers).udp).csum

end Hop

structure IsTransit (hop : Hop) : Prop where
  source : hop.program.source = false
  sink : hop.program.sink = false

/-- A node in the source role that configures INT for the flow of a frame. -/
structure IsSource (hop : Hop) (s : Segments) (n m : BitVec 16) : Prop where
  configures : hop.configures s = some (n, m)
  sink : hop.program.sink = false

def sampleConstants : Constants := ⟨0x0604, 4, 0x00cc⟩

def sampleTables (act : SourceAction) : Tables where
  tbIntSource := ⟨[((0x0a000001, 0x0a000002), act)], some .defaultConf⟩
  tbIntTransit := some .defaultTransitConf
  tbIntInst0003 := table003
  tbIntInst0407 := table407
  tbForward := ⟨[(0x020000000002, .sendToPortCustom 2)], none⟩
  tbPortForward := ⟨[], none⟩
  tableSinkConfig := ⟨[], some .defAction⟩

def sampleHop (source : Bool) (act : SourceAction) : Hop :=
  ⟨⟨sampleConstants, source, false, none⟩, sampleTables act, 0, ⟨⟨1, 100⟩, 0⟩⟩

section Stages

variable (l : Laden) (md : Metadata) (port : BitVec 16) (seq : BitVec 32)

theorem configureSource_headers (hop mask : BitVec 16) (s : Segments) :
    configureSource hop mask ⟨s.headers, md, port, seq⟩ = ⟨(sourced hop mask s).headers, md, port, seq⟩ := by
  obtain ⟨ethernet, ipv4, l4, int, payload⟩ := s
  cases l4 <;> cases int <;> rfl

theorem sourcePart_headers (p : Program) (t : Tables) (s : Segments) :
    (if p.source then
      t.tbIntSource.apply (SourceAction.run p.constants)
        ((read s.headers.ipv4).srcAddr, (read s.headers.ipv4).dstAddr) ⟨s.headers, md, port, seq⟩
      else ⟨s.headers, md, port, seq⟩) = ⟨(sourcePart p t s).headers, md, port, seq⟩ := by
  cases hp : p.source with
  | false =>
      simp only [Bool.false_eq_true, ↓reduceIte, sourcePart, sourceAction, hp]
      rfl
  | true =>
      have hk : ((read s.headers.ipv4).srcAddr, (read s.headers.ipv4).dstAddr) =
          (s.ipv4.srcAddr, s.ipv4.dstAddr) := rfl
      simp only [↓reduceIte, sourcePart, sourceAction, hp, Table.apply, hk]
      cases t.tbIntSource.select (s.ipv4.srcAddr, s.ipv4.dstAddr) with
      | none => rfl
      | some a =>
          cases a with
          | configureSource hop mask => exact configureSource_headers md port seq hop mask s
          | defaultConf => exact configureSource_headers md port seq _ _ s

theorem saveOld_headers : saveOld ⟨l.headers, md, port, seq⟩ = ⟨(saved l).headers, md, port, seq⟩ := by
  obtain ⟨⟨ethernet, ipv4, l4, int, payload⟩, node, ckHelper⟩ := l
  cases l4 <;> cases int <;> cases ckHelper <;> rfl

theorem forward_egressPort (a : Arrival) (t : Tables) (dst : BitVec 48) (hdr : Headers) :
    t.tbPortForward.apply send
      (t.tbForward.apply ForwardAction.run dst ⟨hdr, md, a.egressPort, seq⟩).egressPort
      (t.tbForward.apply ForwardAction.run dst ⟨hdr, md, a.egressPort, seq⟩) =
      ⟨hdr, md, egressPort a t dst, seq⟩ := by
  have hf : t.tbForward.apply ForwardAction.run dst ⟨hdr, md, a.egressPort, seq⟩ =
      ⟨hdr, md, forwardPort a t dst, seq⟩ := by
    rw [Table.apply, forwardPort]
    cases t.tbForward.select dst with
    | none => rfl
    | some act => cases act <;> rfl
  rw [hf, Table.apply, egressPort]
  dsimp only
  cases t.tbPortForward.select (forwardPort a t dst) <;> rfl

theorem tbIntTransit_run (t : Option TransitAction) (hdr : Headers) (hid : md.switchId = 0)
    (hb : md.insertByteCnt = 0) (hw : md.intHdrWordLen = 0) :
    ∃ mtu, t.elim ⟨hdr, md, port, seq⟩ (TransitAction.run · ⟨hdr, md, port, seq⟩) =
      ⟨hdr, { md with switchId := switchId t, insertByteCnt := 0, intHdrWordLen := 0, l3Mtu := mtu },
        port, seq⟩ := by
  cases t with
  | none =>
      refine ⟨md.l3Mtu, ?_⟩
      rw [Option.elim_none, switchId, ← hid, ← hb, ← hw]
  | some act =>
      cases act with
      | configureTransit id mtu => exact ⟨mtu, rfl⟩
      | defaultTransitConf => exact ⟨1500, rfl⟩

theorem add_add (x y : Nat) (m : Metadata) (hb : m.insertByteCnt = 0) (hw : m.intHdrWordLen = 0) :
    add y (add x m) = { m with
      intHdrWordLen := BitVec.ofNat 8 (x + y)
      insertByteCnt := BitVec.ofNat 16 ((x + y) * 4) } := by
  simp only [add, hb, hw, add_mul, BitVec.ofNat_add]
  simp

theorem addMetadata_run (t : Tables) (s : State) (hn : s.hdr.node = NodeMetadata.invalid)
    (hb : s.metadata.insertByteCnt = 0) (hw : s.metadata.intHdrWordLen = 0) (i : Insertion)
    (hi : i = insertion t (read s.hdr.transitIntHeader).instructionMask) :
    ∃ mask, addMetadata t s = { s with
      hdr := { s.hdr with node := chosen (values s) i.fields }
      metadata := { s.metadata with
        mask := mask
        intHdrWordLen := BitVec.ofNat 8 i.words
        insertByteCnt := BitVec.ofNat 16 (i.words * 4) } } := by
  subst hi
  let m := (read s.hdr.transitIntHeader).instructionMask
  let x := selected t.tbIntInst0003 (m &&& 0x00f0#16)
  let y := selected t.tbIntInst0407 (m &&& 0x000f#16)
  let s1 := setMask 0x00f0 s
  have h3 : t.tbIntInst0003.apply InstAction.run s1.metadata.mask s1 = { s1 with
      hdr := { s1.hdr with node := chosen (values s1) fun g => x.fields.contains g }
      metadata := add x.words s1.metadata } :=
    (apply_selected t.tbIntInst0003 _ s1).trans (run_chosen x s1 (fun _ => false) hn)
  let s2 := setMask 0x000f { s1 with
    hdr := { s1.hdr with node := chosen (values s1) fun g => x.fields.contains g }
    metadata := add x.words s1.metadata }
  have h7 : t.tbIntInst0407.apply InstAction.run s2.metadata.mask s2 = { s2 with
      hdr := { s2.hdr with node := chosen (values s) (insertion t m).fields }
      metadata := add y.words s2.metadata } :=
    (apply_selected t.tbIntInst0407 _ s2).trans (run_chosen y s2 (fun g => x.fields.contains g) rfl)
  refine ⟨m &&& 0x000f, ?_⟩
  have hm := add_add x.words y.words { s.metadata with mask := m &&& 0x000f } hb hw
  change t.tbIntInst0407.apply InstAction.run _
    (setMask 0x000f (t.tbIntInst0003.apply InstAction.run s1.metadata.mask s1)) = _
  rw [h3]
  refine h7.trans ?_
  exact congrArg (fun md => (⟨{ s.hdr with node := chosen (values s) (insertion t m).fields }, md,
    s.egressPort, s.reportSeqNum⟩ : State)) hm

theorem updateLengths_headers (v : NodeValues) (i : Insertion) (shim : Intl4Shim) (h : TransitIntHeader)
    (hint : l.int = some (shim, h)) :
    updateLengths ⟨{ l.headers with
        transitIntHeader := some { h with hopInfo := h.hopInfo - 1 }
        node := chosen v i.fields },
      { md with
        intHdrWordLen := BitVec.ofNat 8 i.words
        insertByteCnt := BitVec.ofNat 16 (i.words * 4) }, port, seq⟩ =
      ⟨(inserted v i l).headers, { md with
        intHdrWordLen := BitVec.ofNat 8 i.words
        insertByteCnt := BitVec.ofNat 16 (i.words * 4) }, port, seq⟩ := by
  obtain ⟨⟨ethernet, ipv4, l4, int, payload⟩, node, ckHelper⟩ := l
  dsimp only at hint
  subst hint
  cases l4 <;> rfl

theorem transit_headers (t : Tables) (shim : Intl4Shim) (h : TransitIntHeader)
    (hint : l.int = some (shim, h)) (hnode : l.node = NodeMetadata.invalid) (hid : md.switchId = 0)
    (hb : md.insertByteCnt = 0) (hw : md.intHdrWordLen = 0) :
    ∃ md', md'.totalHopsLen = md.totalHopsLen ∧ md'.switchId = switchId t.tbIntTransit ∧
      transit t ⟨l.headers, md, port, seq⟩ = ⟨(inserted ⟨switchId t.tbIntTransit, md.ingressPort, port, md.ingressTstamp⟩
        (insertion t h.instructionMask) l).headers, md', port, seq⟩ := by
  have hc : intHopCntIncrement ⟨l.headers, md, port, seq⟩ =
      ⟨{ l.headers with transitIntHeader := some { h with hopInfo := h.hopInfo - 1 } },
        md, port, seq⟩ := by
    rw [intHopCntIncrement, Laden.headers, Segments.headers, hint]
    rfl
  obtain ⟨mtu, ht⟩ := tbIntTransit_run md port seq t.tbIntTransit
    { l.headers with transitIntHeader := some { h with hopInfo := h.hopInfo - 1 } } hid hb hw
  obtain ⟨mask, ha⟩ := addMetadata_run t ⟨{ l.headers with
      transitIntHeader := some { h with hopInfo := h.hopInfo - 1 } },
    { md with switchId := switchId t.tbIntTransit, insertByteCnt := 0, intHdrWordLen := 0, l3Mtu := mtu },
    port, seq⟩ hnode rfl rfl (insertion t h.instructionMask) rfl
  refine ⟨{ md with
    switchId := switchId t.tbIntTransit
    l3Mtu := mtu
    mask := mask
    intHdrWordLen := BitVec.ofNat 8 (insertion t h.instructionMask).words
    insertByteCnt := BitVec.ofNat 16 ((insertion t h.instructionMask).words * 4) }, rfl, rfl, ?_⟩
  dsimp only [transit]
  rw [hc, ht, ha]
  exact updateLengths_headers l { md with switchId := switchId t.tbIntTransit, l3Mtu := mtu, mask := mask }
    port seq _ _ shim h hint

theorem intHopExceeded_headers :
    intHopExceeded ⟨l.headers, md, port, seq⟩ = ⟨(onHeader exceed l).headers, md, port, seq⟩ := by
  obtain ⟨⟨ethernet, ipv4, l4, int, payload⟩, node, ckHelper⟩ := l
  cases int <;> rfl

theorem withMac_headers (mac : Option (BitVec 48)) :
    mac.elim ⟨l.headers, md, port, seq⟩ (testUpdateAddresses · ⟨l.headers, md, port, seq⟩) =
      ⟨(withMac mac l).headers, md, port, seq⟩ := by
  cases mac <;> rfl

theorem transitPart_headers (p : Program) (t : Tables) (a : Arrival) (hnode : l.node = NodeMetadata.invalid)
    (hid : md.switchId = 0) (hb : md.insertByteCnt = 0) (hw : md.intHdrWordLen = 0)
    (hp : md.ingressPort = a.istd.ingressPort) (ht : md.ingressTstamp = a.istd.ingressTimestamp) :
    ∃ md', md'.totalHopsLen = md.totalHopsLen ∧ md'.switchId = knownSwitchId p t l.int ∧
      transitPart p t ⟨l.headers, md, egressPort a t l.ethernet.dstAddr, seq⟩ =
      ⟨(transited p t a (saved l)).headers, md', egressPort a t l.ethernet.dstAddr, seq⟩ := by
  simp only [transitPart, saveOld_headers]
  cases hint : l.int with
  | none =>
      have hs : (saved l).headers.transitIntHeader = none := by
        rw [Laden.headers, Segments.headers, saved]
        simp only [hint]
        rfl
      have hl : (saved l).int = none := hint
      refine ⟨md, rfl, hid, ?_⟩
      simp only [hs, Option.isSome_none, Bool.false_eq_true, ↓reduceIte, transited, hl]
  | some r =>
      obtain ⟨shim, h⟩ := r
      have hl : (saved l).int = some (shim, h) := hint
      have hs : (saved l).headers.transitIntHeader = some h := by
        rw [Laden.headers, Segments.headers, hl]
        rfl
      simp only [hs, Option.isSome_some, ↓reduceIte, transited, hl, read_some]
      by_cases hx : h.hopInfo ≠ exhausted p.constants
      · obtain ⟨md', hlen, hid', hm⟩ := transit_headers (saved l) md (egressPort a t l.ethernet.dstAddr) seq t shim h
          hl hnode hid hb hw
        refine ⟨md', hlen, by rw [hid', knownSwitchId, if_pos hx], ?_⟩
        rw [if_pos hx, if_pos hx, hm, hp, ht]
        exact withMac_headers _ md' _ seq p.mac
      · refine ⟨md, rfl, by rw [hid, knownSwitchId, if_neg hx], ?_⟩
        rw [if_neg hx, if_neg hx, intHopExceeded_headers]
        exact withMac_headers _ md _ seq p.mac

end Stages

theorem myIngress_headers (hop : Hop) (s : Segments) :
    ∃ md port, md.totalHopsLen = 0 ∧
      md.switchId = knownSwitchId hop.program hop.tables (sourcePart hop.program hop.tables s).int ∧
      myIngress hop.program hop.tables hop.arrival.istd
        ⟨s.headers, s.metadata, hop.arrival.egressPort, hop.reportSeqNum⟩ =
      if hop.program.sink then
        sinkPart hop.tables hop.arrival.istd ⟨(hop.laden s).headers, md, port, hop.reportSeqNum⟩
      else ⟨(hop.laden s).headers, md, port, hop.reportSeqNum⟩ := by
  have hl4 : (s.headers.udp.isSome || s.headers.tcp.isSome) = true := by
    obtain ⟨ethernet, ipv4, l4, int, payload⟩ := s
    cases l4 <;> rfl
  have hn : (sourcePart hop.program hop.tables s).node = NodeMetadata.invalid ∧
      (sourcePart hop.program hop.tables s).ethernet = s.ethernet := by
    rw [sourcePart]
    cases sourceAction hop.program hop.tables s <;> exact ⟨rfl, rfl⟩
  obtain ⟨md, hlen, hid, hm⟩ := transitPart_headers (sourcePart hop.program hop.tables s)
    { s.metadata with
      ingressTstamp := hop.arrival.istd.ingressTimestamp
      ingressPort := hop.arrival.istd.ingressPort }
    hop.reportSeqNum hop.program hop.tables hop.arrival hn.1 rfl rfl rfl rfl rfl
  refine ⟨md, egressPort hop.arrival hop.tables (sourcePart hop.program hop.tables s).ethernet.dstAddr,
    hlen, hid, ?_⟩
  simp only [myIngress, hl4, ↓reduceIte, sourcePart_headers, forward_egressPort]
  cases hop.program.sink with
  | false => exact hm
  | true => exact congrArg (sinkPart hop.tables hop.arrival.istd) hm

theorem deparsed_headers (source : Bool) (l : Laden) :
    udpChecksum source { l.headers with
        ipv4 := write l.headers.ipv4 fun h => { h with hdrChecksum := ipv4Checksum source l.headers } } =
      (deparsed source l).headers := by
  obtain ⟨⟨ethernet, ipv4, l4, int, payload⟩, node, ckHelper⟩ := l
  cases source <;> cases l4 <;> cases int <;> rfl

theorem emitOriginal_headers (l : Laden) : emitOriginal l.headers ++ l.payload = l.emitted.frame := by
  obtain ⟨⟨ethernet, ipv4, l4, int, payload⟩, node, ckHelper⟩ := l
  cases l4 <;> cases int <;>
    simp [emitOriginal, Laden.headers, Laden.emitted, Segments.headers, Segments.frame, Transport.udp?,
      Transport.tcp?, Transport.encode, intBytes]

theorem myIngressDeparser_headers (p : Program) (l : Laden) (hk : (l.int.isSome && p.sink) = false) :
    myIngressDeparser p l.headers l.payload = (deparsed p.source l).emitted.frame := by
  have hr : ((deparsed p.source l).headers.transitIntHeader.isSome && p.sink) = false := by
    rw [← hk, Laden.headers, Segments.headers, deparsed]
    cases p.source <;> cases l.int <;> rfl
  simp only [myIngressDeparser]
  rw [deparsed_headers, hr, ← emitOriginal_headers]
  rfl

theorem laden_payload (hop : Hop) (s : Segments) : (hop.laden s).payload = s.payload := by
  have hs : (saved (sourcePart hop.program hop.tables s)).payload = s.payload := by
    rw [saved, sourcePart]
    cases sourceAction hop.program hop.tables s <;> rfl
  rw [Hop.laden, transited, ← hs]
  split
  · rfl
  · split <;> rfl

theorem forward_frame (hop : Hop) (s : Segments) (hs : s.Accepted) (hk : hop.program.sink = false) :
    hop.forward s.frame = some (hop.effect s).frame := by
  obtain ⟨md, port, -, -, hi⟩ := myIngress_headers hop s
  simp only [hk, Bool.false_eq_true, ↓reduceIte] at hi
  have hd := myIngressDeparser_headers hop.program (hop.laden s) (by rw [hk, Bool.and_false])
  rw [laden_payload] at hd
  have hp : ingressPipeline hop.program hop.tables hop.reportSeqNum hop.arrival s.frame =
      some ⟨(hop.effect s).frame, port, hop.reportSeqNum⟩ := by
    rw [ingressPipeline, myIngressParser_frame s hs]
    change some _ = _
    rw [hi, hd]
    rfl
  rw [Hop.forward, hp]
  rfl

def Hop.insertion (hop : Hop) (mask : BitVec 16) : Insertion := Effects.insertion hop.tables mask

def Hop.values (hop : Hop) (s : Segments) : NodeValues :=
  nodeValues hop.tables hop.arrival s.ethernet.dstAddr

theorem protocol_withCsum (csum : BitVec 16) (l4 : Transport) :
    (withCsum csum l4).protocol = l4.protocol := by
  cases l4 <;> rfl

theorem protocol_growUdp (x : BitVec 16) (l4 : Transport) : (growUdp x l4).protocol = l4.protocol := by
  cases l4 <;> rfl

theorem length_withCsum (csum : BitVec 16) (l4 : Transport) :
    (withCsum csum l4).encode.length = l4.encode.length := by
  cases l4 <;> rfl

theorem length_growUdp (x : BitVec 16) (l4 : Transport) :
    (growUdp x l4).encode.length = l4.encode.length := by
  cases l4 <;> rfl

theorem exceed_eq (h : TransitIntHeader) : exceed h = { h with cE := (exceed h).cE } := by
  rw [exceed]
  split <;> rfl

theorem exceed_cE (h : TransitIntHeader) (he : h.cE = 0 ∨ h.cE = 1) : (exceed h).cE = 1 := by
  rw [exceed]
  rcases he with he | he
  · rw [if_pos (.inl he)]
    dsimp only
    rw [he]
    rfl
  · rw [if_neg (by rw [he]; decide), he]

section Branches

variable (hop : Hop) (s : Segments) (l : Laden) (shim : Intl4Shim) (h : TransitIntHeader)
  (hl : sourcePart hop.program hop.tables s = l) (he : l.ethernet = s.ethernet)
  (hint : l.int = some (shim, h))

include hl hint

include he in
theorem laden_inserted (hx : h.hopInfo ≠ exhausted hop.program.constants) :
    hop.laden s = withMac hop.program.mac
      (inserted (hop.values s) (hop.insertion h.instructionMask) (saved l)) := by
  have hs : (saved l).int = some (shim, h) := hint
  rw [Hop.laden, hl, transited, hs]
  dsimp only
  rw [if_pos hx, Hop.values, ← he]
  rfl

theorem laden_exceeded (hx : h.hopInfo = exhausted hop.program.constants) :
    hop.laden s = withMac hop.program.mac (onHeader exceed (saved l)) := by
  have hs : (saved l).int = some (shim, h) := hint
  rw [Hop.laden, hl, transited, hs]
  dsimp only
  rw [if_neg (not_not.mpr hx)]

end Branches

section TransitRole

variable (hop : Hop) (s : Segments) (shim : Intl4Shim) (h : TransitIntHeader)
  (hsrc : hop.program.source = false) (hint : s.int = some (shim, h))

include hsrc

theorem sourcePart_transit :
    sourcePart hop.program hop.tables s = { s with node := NodeMetadata.invalid, ckHelper := none } := by
  rw [sourcePart, sourceAction, hsrc]
  rfl

include hint

theorem effect_inserted (hx : h.hopInfo ≠ exhausted hop.program.constants) :
    hop.effect s =
      { ethernet := { s.ethernet with dstAddr := hop.program.mac.getD s.ethernet.dstAddr }
        ipv4 := { s.ipv4 with
          totalLen := s.ipv4.totalLen + BitVec.ofNat 16 ((hop.insertion h.instructionMask).words * 4)
          hdrChecksum := hop.hdrChecksum s }
        l4 := withCsum (hop.csum s)
          (growUdp (BitVec.ofNat 16 ((hop.insertion h.instructionMask).words * 4)) s.l4)
        int := some
          ({ shim with len := shim.len + BitVec.ofNat 8 (hop.insertion h.instructionMask).words },
            { h with hopInfo := h.hopInfo - 1 })
        payload :=
          chosenBytes (hop.values s) (hop.insertion h.instructionMask).fields ++ s.payload } := by
  rw [Hop.effect, Hop.hdrChecksum, Hop.csum, hsrc, Laden.emitted, deparsed,
    laden_inserted hop s _ shim h (sourcePart_transit hop s hsrc) rfl hint hx]
  simp only [Bool.false_eq_true, ↓reduceIte, withMac, inserted, saved, hint, Option.map_some,
    emitNode_chosen]

theorem effect_exceeded (hx : h.hopInfo = exhausted hop.program.constants) :
    hop.effect s =
      { ethernet := { s.ethernet with dstAddr := hop.program.mac.getD s.ethernet.dstAddr }
        ipv4 := { s.ipv4 with hdrChecksum := hop.hdrChecksum s }
        l4 := withCsum (hop.csum s) s.l4
        int := some (shim, exceed h)
        payload := s.payload } := by
  rw [Hop.effect, Hop.hdrChecksum, Hop.csum, hsrc, Laden.emitted, deparsed,
    laden_exceeded hop s _ shim h (sourcePart_transit hop s hsrc) hint hx]
  simp only [Bool.false_eq_true, ↓reduceIte, withMac, onHeader, saved, hint, Option.map_some]
  rfl

end TransitRole

section SourceRole

variable (hop : Hop) (s : Segments) (n m : BitVec 16) (hc : hop.configures s = some (n, m))

include hc

theorem source_of_configures : hop.program.source = true := by
  cases hs : hop.program.source with
  | false =>
      rw [Hop.configures, sourceAction, hs] at hc
      cases hc
  | true => rfl

theorem sourcePart_source : sourcePart hop.program hop.tables s = sourced n m s := by
  obtain ⟨act, ha, hp⟩ := Option.map_eq_some_iff.mp hc
  rw [sourcePart, ha]
  dsimp only
  rw [hp]

theorem effect_sourced (hx : n ≠ exhausted hop.program.constants) :
    hop.effect s =
      { ethernet := { s.ethernet with dstAddr := hop.program.mac.getD s.ethernet.dstAddr }
        ipv4 := { s.ipv4 with
          dscp := 0x20
          totalLen := s.ipv4.totalLen + 20 + BitVec.ofNat 16 ((hop.insertion m).words * 4)
          hdrChecksum := hop.hdrChecksum s }
        l4 := withCsum (hop.csum s)
          (growUdp (BitVec.ofNat 16 ((hop.insertion m).words * 4)) (growUdp 20 s.l4))
        int := some
          ({ sourceShim s.ipv4.dscp (read (s.int.map Prod.fst)) with
              len := 5 + BitVec.ofNat 8 (hop.insertion m).words },
            { sourceHeader n m (read (s.int.map Prod.snd)) with
              hopInfo := n - 1
              rsvd3 := hop.rsvd3 s })
        payload := chosenBytes (hop.values s) (hop.insertion m).fields ++ s.payload } := by
  rw [Hop.effect, Hop.hdrChecksum, Hop.csum, Hop.rsvd3, source_of_configures hop s n m hc, Laden.emitted,
    deparsed, laden_inserted hop s _ _ _ (sourcePart_source hop s n m hc) rfl rfl hx]
  simp only [↓reduceIte, withMac, inserted, saved, sourced, Option.map_some, emitNode_chosen]
  rfl

theorem effect_sourced_exceeded (hx : n = exhausted hop.program.constants) :
    hop.effect s =
      { ethernet := { s.ethernet with dstAddr := hop.program.mac.getD s.ethernet.dstAddr }
        ipv4 := { s.ipv4 with
          dscp := 0x20
          totalLen := s.ipv4.totalLen + 20
          hdrChecksum := hop.hdrChecksum s }
        l4 := withCsum (hop.csum s) (growUdp 20 s.l4)
        int := some (sourceShim s.ipv4.dscp (read (s.int.map Prod.fst)),
          { sourceHeader n m (read (s.int.map Prod.snd)) with
            cE := 1#16
            rsvd3 := hop.rsvd3 s })
        payload := s.payload } := by
  rw [Hop.effect, Hop.hdrChecksum, Hop.csum, Hop.rsvd3, source_of_configures hop s n m hc, Laden.emitted,
    deparsed, laden_exceeded hop s _ _ _ (sourcePart_source hop s n m hc) rfl hx]
  simp only [↓reduceIte, withMac, onHeader, saved, sourced, Option.map_some]
  rfl

end SourceRole

end IntPlatform.P4c.Effects
