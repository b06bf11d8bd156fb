import Mathlib.Data.List.Basic
import IntPlatform.Collector.Buffers
import IntPlatform.Collector.Loop
import IntPlatform.Library.Numerals

namespace IntPlatform.Exporter.AddReport

open Library.Formats Library.Numerals
open Collector.Records Collector.ProcessPacket Collector.Outcome Collector.Buffers Collector.Loop

def unsigned {w : Nat} (v : BitVec w) : List Char := Nat.toDigits 10 v.toNat

def signed {w : Nat} (v : BitVec w) : List Char :=
  if v.toInt < 0 then '-' :: Nat.toDigits 10 v.toInt.natAbs else Nat.toDigits 10 v.toInt.natAbs

def tags (t : TelemetricHdr) : List Char :=
  "int_telemetry,srcip=".toList ++ t.srcIp ++ ",dstip=".toList ++ t.dstIp ++
    ",srcp=".toList ++ unsigned t.srcPort ++ ",dstp=".toList ++ unsigned t.dstPort ++
    ",protocol=".toList ++ unsigned t.protocol

def packetLine (t : TelemetricHdr) : List Char :=
  tags t ++ " origts=".toList ++ unsigned t.origTs ++ ",dstts=".toList ++ unsigned t.dstTs ++
    ",seq=".toList ++ unsigned t.seqNum ++ ",delay=".toList ++ unsigned t.delay ++
    ",sink_jitter=".toList ++ unsigned t.sinkJitter ++ ",reordering=".toList ++ signed t.reordering ++
    " ".toList ++ unsigned t.dstTs ++ "\n".toList

def firstNodeLine (tmp : List Char) (item : TelemetricMeta) : List Char :=
  tmp ++ ",hop_index=".toList ++ unsigned item.hopIndex ++ " hop_delay=".toList ++
    unsigned item.hopDelay ++ ",hop_jitter=".toList ++ unsigned item.hopJitter ++ " ".toList ++
    unsigned item.hopTimestamp ++ "\n".toList

def nodeLine (tmp : List Char) (item : TelemetricMeta) : List Char :=
  if item.hopDelay ≠ 0 then
    tmp ++ ",hop_index=".toList ++ unsigned item.hopIndex ++ " hop_delay=".toList ++
      unsigned item.hopDelay ++ ",link_delay=".toList ++ signed item.linkDelay ++
      ",hop_jitter=".toList ++ signed item.hopJitter ++ " ".toList ++ unsigned item.hopTimestamp ++
      "\n".toList
  else
    tmp ++ ",hop_index=".toList ++ unsigned item.hopIndex ++ " link_delay=".toList ++
      signed item.linkDelay ++ ",hop_jitter=".toList ++ signed item.hopJitter ++ " ".toList ++
      unsigned item.hopTimestamp ++ "\n".toList

structure ReportLoop where
  it : BitVec 32
  data : List Char
  first : Bool

def addNode (tmp : List Char) (s : ReportLoop) (item : TelemetricMeta) : ReportLoop :=
  if s.first then ⟨s.it + 1, s.data ++ firstNodeLine tmp item, false⟩
  else ⟨s.it + 1, s.data ++ nodeLine tmp item, s.first⟩

def addReport (t : TelemetricHdr) (data : List Char) : BitVec 32 × List Char :=
  let s := t.nodeMeta.foldl (addNode (tags t)) ⟨1, data ++ packetLine t, true⟩
  (s.it, s.data)

def nodeLines (tmp : List Char) : List TelemetricMeta → List Char
  | [] => []
  | first :: items => firstNodeLine tmp first ++ items.flatMap (nodeLine tmp)

def report (t : TelemetricHdr) : List Char := packetLine t ++ nodeLines (tags t) t.nodeMeta

def lines (text : List Char) : Nat := text.count '\n'

theorem foldl_addNode (tmp : List Char) (items : List TelemetricMeta) (it : BitVec 32) (data : List Char) :
    items.foldl (addNode tmp) ⟨it, data, false⟩ =
      ⟨it + BitVec.ofNat 32 items.length, data ++ items.flatMap (nodeLine tmp), false⟩ := by
  induction items generalizing it data with
  | nil => simp
  | cons item items ih =>
      rw [List.foldl_cons, addNode, if_neg Bool.false_ne_true, ih, List.flatMap_cons, List.append_assoc,
        BitVec.add_assoc, List.length_cons, Nat.add_comm, BitVec.ofNat_add]
      rfl

theorem addReport_eq (t : TelemetricHdr) (data : List Char) :
    addReport t data = (BitVec.ofNat 32 (1 + t.nodeMeta.length), data ++ report t) := by
  rw [addReport, report, ← List.append_assoc]
  cases t.nodeMeta with
  | nil => simp [nodeLines]
  | cons first items =>
      rw [List.foldl_cons, addNode, if_pos rfl, foldl_addNode, nodeLines, List.append_assoc,
        List.length_cons, BitVec.ofNat_add, Nat.add_comm items.length, BitVec.ofNat_add, BitVec.add_assoc]
      rfl

theorem newline_notMem_toDigits (n : Nat) : '\n' ∉ Nat.toDigits 10 n :=
  notMem_toDigits 10 (by decide) (by decide) n '\n' rfl

theorem lines_append (a b : List Char) : lines (a ++ b) = lines a + lines b := List.count_append

theorem lines_newline : lines "\n".toList = 1 := by decide

theorem lines_eq_zero (text : List Char) (h : '\n' ∉ text) : lines text = 0 := List.count_eq_zero.mpr h

theorem lines_unsigned {w : Nat} (v : BitVec w) : lines (unsigned v) = 0 :=
  lines_eq_zero _ (newline_notMem_toDigits _)

theorem lines_signed {w : Nat} (v : BitVec w) : lines (signed v) = 0 := by
  rw [signed]
  split
  · rw [lines, List.count_cons_of_ne (by decide)]
    exact lines_eq_zero _ (newline_notMem_toDigits _)
  · exact lines_eq_zero _ (newline_notMem_toDigits _)

/-- The text of an IPv4 address: digits and dots, at most 15 of them. -/
structure DottedDecimal (text : List Char) : Prop where
  chars : ∀ c ∈ text, c.isDigit = true ∨ c = '.'
  length : text.length ≤ 15

theorem DottedDecimal.notMem {text : List Char} (h : DottedDecimal text) (c : Char)
    (hdigit : c.isDigit = false) (hdot : c ≠ '.') : c ∉ text := by
  intro hmem
  rcases h.chars c hmem with hc | hc
  · rw [hdigit] at hc
    cases hc
  · exact hdot hc

theorem dottedDecimal_inetNtop (addr : BitVec 32) : DottedDecimal (inetNtop addr) := by
  obtain ⟨b₁, b₂, b₃, b₄, h⟩ := List.length_eq_four.mp (le32.encode_length addr)
  rw [inetNtop, h]
  simp only [List.map_cons, List.map_nil, List.intercalate_cons_cons, List.intercalate_singleton]
  have hdigits (b : Byte) (c : Char) (hc : c ∈ Nat.toDigits 10 b.toNat) : c.isDigit = true :=
    Nat.isDigit_of_mem_toDigits (by decide) (by decide) hc
  constructor
  · intro c hc
    simp only [List.mem_append, List.mem_singleton] at hc
    rcases hc with (hc | hdot) | (hc | hdot) | (hc | hdot) | hc
    · exact Or.inl (hdigits b₁ c hc)
    · exact Or.inr hdot
    · exact Or.inl (hdigits b₂ c hc)
    · exact Or.inr hdot
    · exact Or.inl (hdigits b₃ c hc)
    · exact Or.inr hdot
    · exact Or.inl (hdigits b₄ c hc)
  · have hlen (b : Byte) : (Nat.toDigits 10 b.toNat).length ≤ 3 := by
      rw [Nat.length_toDigits_le_iff (by decide) (by decide)]
      omega
    simp only [List.length_append, List.length_singleton]
    have h₁ := hlen b₁
    have h₂ := hlen b₂
    have h₃ := hlen b₃
    have h₄ := hlen b₄
    omega

section Lines

variable (t : TelemetricHdr) (hsrc : DottedDecimal t.srcIp) (hdst : DottedDecimal t.dstIp)

include hsrc hdst

theorem lines_tags : lines (tags t) = 0 := by
  have hsrc' : lines t.srcIp = 0 := lines_eq_zero _ (hsrc.notMem '\n' rfl (by decide))
  have hdst' : lines t.dstIp = 0 := lines_eq_zero _ (hdst.notMem '\n' rfl (by decide))
  unfold tags
  simp (disch := decide) only [lines_append, lines_unsigned, hsrc', hdst', lines_eq_zero]

theorem lines_report_eq : lines (report t) = 1 + t.nodeMeta.length := by
  have htags := lines_tags t hsrc hdst
  have hpacket : lines (packetLine t) = 1 := by
    simp (disch := decide) only [packetLine, lines_append, lines_unsigned, lines_signed, htags,
      lines_newline, lines_eq_zero]
  have hfirst (item : TelemetricMeta) : lines (firstNodeLine (tags t) item) = 1 := by
    simp (disch := decide) only [firstNodeLine, lines_append, lines_unsigned, htags, lines_newline,
      lines_eq_zero]
  have hnode (item : TelemetricMeta) : lines (nodeLine (tags t) item) = 1 := by
    rw [nodeLine]
    split
    · simp (disch := decide) only [lines_append, lines_unsigned, lines_signed, htags, lines_newline,
        lines_eq_zero]
    · simp (disch := decide) only [lines_append, lines_unsigned, lines_signed, htags, lines_newline,
        lines_eq_zero]
  have hnodes (items : List TelemetricMeta) :
      lines (items.flatMap (nodeLine (tags t))) = items.length := by
    induction items with
    | nil => rfl
    | cons item items ih =>
        rw [List.flatMap_cons, lines_append, ih, hnode, List.length_cons, Nat.add_comm]
  rw [report, lines_append, hpacket]
  cases t.nodeMeta with
  | nil => rfl
  | cons first items =>
      rw [nodeLines, lines_append, hfirst, hnodes, List.length_cons, Nat.add_comm 1 items.length]

end Lines

/-- A record as process_packet passes it to the exporter. -/
structure Exported (t : TelemetricHdr) : Prop where
  srcIp : ∃ addr, t.srcIp = inetNtop addr
  dstIp : ∃ addr, t.dstIp = inetNtop addr
  nodeMeta : t.nodeMeta.length ≤ reach

theorem Exported.dottedDecimal {t : TelemetricHdr} (ht : Exported t) :
    DottedDecimal t.srcIp ∧ DottedDecimal t.dstIp := by
  obtain ⟨src, hsrc⟩ := ht.srcIp
  obtain ⟨dst, hdst⟩ := ht.dstIp
  exact ⟨hsrc ▸ dottedDecimal_inetNtop src, hdst ▸ dottedDecimal_inetNtop dst⟩

theorem lines_report (t : TelemetricHdr) (ht : Exported t) :
    lines (report t) = 1 + t.nodeMeta.length :=
  lines_report_eq t ht.dottedDecimal.1 ht.dottedDecimal.2

theorem cutTimestamps_exported (opt : Options) (t : TelemetricHdr) (ht : Exported t) :
    Exported (cutTimestamps opt t) := by
  rw [cutTimestamps]
  split
  · exact ⟨ht.srcIp, ht.dstIp, ht.nodeMeta⟩
  · exact ht

section Records

variable {slots : Nat}

theorem recordOf_exported (st : Globals slots) (h : IntInflux) (nodes : List IntMeta) (first : IntMeta)
    (hlt : nodes.length < reach) : Exported (recordOf st h nodes first) := by
  refine ⟨⟨_, recordOf_srcIp st h nodes first⟩, ⟨_, recordOf_dstIp st h nodes first⟩, ?_⟩
  have hlen := congrArg List.length
    (map_hopOf_nodeRecords st.prevTimestamps (ntoh64 first.egressTstamp) nodes)
  rw [List.length_map, List.length_mapIdx] at hlen
  rw [recordOf, List.length_append, hlen]
  exact hlt

theorem processPacket_exported (opt : Options) (st : Globals slots) (buffer : List Byte)
    (h : buffer.length = pktBufSize) (r : TelemetricHdr × Globals slots)
    (hr : processPacket opt st buffer = .ok r) : Exported r.1 := by
  obtain ⟨-, -, rfl⟩ := processPacket_buffer_ok opt st buffer h r hr
  have hlt := metaCntOf_lt_reach (influxOf buffer)
  exact cutTimestamps_exported _ _ (recordOf_exported _ _ _ _ (by rwa [announced_length]))

theorem loopProccess_exported (opt : Options) (st : Globals slots) (buffer : List Byte)
    (frames : List (List Byte)) (h : buffer.length = pktBufSize) (records : List TelemetricHdr)
    (hr : loopProccess opt st buffer frames = .ok records) : ∀ t ∈ records, Exported t := by
  induction frames generalizing st buffer records with
  | nil =>
      cases hr
      intro t ht
      cases ht
  | cons frame frames ih =>
      rw [loopProccess] at hr
      obtain ⟨⟨record, st'⟩, hp, hr⟩ := bind_eq_ok hr
      obtain ⟨rest, hrest, hr⟩ := bind_eq_ok hr
      cases hr
      have hlen := recvfrom_length frame buffer h
      intro t ht
      rcases List.mem_cons.mp ht with rfl | ht
      · exact processPacket_exported opt st _ hlen _ hp
      · exact ih _ _ hlen rest hrest t ht

end Records

end IntPlatform.Exporter.AddReport
