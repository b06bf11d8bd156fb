import Mathlib.Algebra.Order.BigOperators.Group.List
import IntPlatform.Exporter.AddReport

namespace IntPlatform.Exporter.ReportWidths

open Library.Numerals Collector.Records Collector.ProcessPacket AddReport

def unsignedWidth {w : Nat} (v : BitVec w) : Nat := Nat.log 10 v.toNat + 1

def signedWidth {w : Nat} (v : BitVec w) : Nat :=
  (if v.toInt < 0 then 1 else 0) + (Nat.log 10 v.toInt.natAbs + 1)

def tagsWidth (t : TelemetricHdr) : Nat :=
  49 + t.srcIp.length + t.dstIp.length + unsignedWidth t.srcPort + unsignedWidth t.dstPort +
    unsignedWidth t.protocol

def packetWidth (t : TelemetricHdr) : Nat :=
  tagsWidth t + 54 + unsignedWidth t.origTs + 2 * unsignedWidth t.dstTs + unsignedWidth t.seqNum +
    unsignedWidth t.delay + unsignedWidth t.sinkJitter + signedWidth t.reordering

def firstNodeWidth (t : TelemetricHdr) (item : TelemetricMeta) : Nat :=
  tagsWidth t + 36 + unsignedWidth item.hopIndex + unsignedWidth item.hopDelay +
    unsignedWidth item.hopJitter + unsignedWidth item.hopTimestamp

def nodeWidth (t : TelemetricHdr) (item : TelemetricMeta) : Nat :=
  tagsWidth t + (if item.hopDelay ≠ 0 then 48 + unsignedWidth item.hopDelay else 37) +
    unsignedWidth item.hopIndex + signedWidth item.linkDelay + signedWidth item.hopJitter +
    unsignedWidth item.hopTimestamp

def recordWidth (t : TelemetricHdr) : Nat :=
  packetWidth t +
    match t.nodeMeta with
    | [] => 0
    | first :: items => firstNodeWidth t first + (items.map (nodeWidth t)).sum

theorem length_unsigned {w : Nat} (v : BitVec w) : (unsigned v).length = unsignedWidth v :=
  length_toDigits 10 (by decide) v.toNat

theorem length_signed {w : Nat} (v : BitVec w) : (signed v).length = signedWidth v := by
  rw [signed, signedWidth]
  split
  · rw [List.length_cons, length_toDigits 10 (by decide), Nat.add_comm]
  · rw [length_toDigits 10 (by decide), Nat.zero_add]

theorem length_tags (t : TelemetricHdr) : (tags t).length = tagsWidth t := by
  unfold tags tagsWidth
  simp only [List.length_append, length_unsigned, String.reduceToList, List.length_cons, List.length_nil]
  omega

theorem length_packetLine (t : TelemetricHdr) : (packetLine t).length = packetWidth t := by
  unfold packetLine packetWidth
  simp only [List.length_append, length_tags, length_unsigned, length_signed, String.reduceToList,
    List.length_cons, List.length_nil]
  omega

theorem length_firstNodeLine (t : TelemetricHdr) (item : TelemetricMeta) :
    (firstNodeLine (tags t) item).length = firstNodeWidth t item := by
  unfold firstNodeLine firstNodeWidth
  simp only [List.length_append, length_tags, length_unsigned, String.reduceToList, List.length_cons,
    List.length_nil]
  omega

theorem length_nodeLine (t : TelemetricHdr) (item : TelemetricMeta) :
    (nodeLine (tags t) item).length = nodeWidth t item := by
  unfold nodeLine nodeWidth
  split
  · simp only [List.length_append, length_tags, length_unsigned, length_signed, String.reduceToList,
      List.length_cons, List.length_nil]
    omega
  · simp only [List.length_append, length_tags, length_unsigned, length_signed, String.reduceToList,
      List.length_cons, List.length_nil]
    omega

theorem length_report (t : TelemetricHdr) : (report t).length = recordWidth t := by
  rw [report, recordWidth, List.length_append, length_packetLine]
  cases t.nodeMeta with
  | nil => rfl
  | cons first items =>
      rw [nodeLines, List.length_append, length_firstNodeLine, List.length_flatMap]
      simp only [length_nodeLine]

theorem length_reports (records : List TelemetricHdr) :
    (records.flatMap report).length = (records.map recordWidth).sum := by
  rw [List.length_flatMap]
  simp only [length_report]

section Bounds

variable {w : Nat} (v : BitVec w)

theorem unsignedWidth_pos : 1 ≤ unsignedWidth v := Nat.succ_pos _

theorem signedWidth_pos : 1 ≤ signedWidth v := by
  rw [signedWidth]
  omega

theorem unsignedWidth_le (n : Nat) (hw : 2 ^ w ≤ 10 ^ n) (hn : n ≠ 0) : unsignedWidth v ≤ n := by
  have hlt : v.toNat < 10 ^ n := Nat.lt_of_lt_of_le v.isLt hw
  exact Nat.log_lt_of_lt_pow' hn hlt

theorem signedWidth_le (v : BitVec 64) : signedWidth v ≤ 20 := by
  have hge := v.le_toInt
  have hlt := v.toInt_lt
  have hlog : Nat.log 10 v.toInt.natAbs < 19 := by
    apply Nat.log_lt_of_lt_pow' (by decide)
    omega
  rw [signedWidth]
  split <;> omega

theorem unsignedWidth_le_five (v : BitVec 16) : unsignedWidth v ≤ 5 :=
  unsignedWidth_le v 5 (by decide) (by decide)

theorem unsignedWidth_le_three (v : BitVec 8) : unsignedWidth v ≤ 3 :=
  unsignedWidth_le v 3 (by decide) (by decide)

theorem unsignedWidth_le_twenty (v : BitVec 64) : unsignedWidth v ≤ 20 :=
  unsignedWidth_le v 20 (by decide) (by decide)

end Bounds

section Lines

variable (t : TelemetricHdr) (item : TelemetricMeta)

theorem packetWidth_ge : 92 ≤ packetWidth t := by
  unfold packetWidth tagsWidth
  omega

theorem firstNodeWidth_ge : 92 ≤ firstNodeWidth t item := by
  unfold firstNodeWidth tagsWidth
  have hsrcp := unsignedWidth_pos t.srcPort
  have hdstp := unsignedWidth_pos t.dstPort
  have hprotocol := unsignedWidth_pos t.protocol
  have hindex := unsignedWidth_pos item.hopIndex
  have hdelay := unsignedWidth_pos item.hopDelay
  have hjitter := unsignedWidth_pos item.hopJitter
  have htime := unsignedWidth_pos item.hopTimestamp
  omega

theorem nodeWidth_ge : 92 ≤ nodeWidth t item := by
  unfold nodeWidth tagsWidth
  have hsrcp := unsignedWidth_pos t.srcPort
  have hdstp := unsignedWidth_pos t.dstPort
  have hprotocol := unsignedWidth_pos t.protocol
  have hindex := unsignedWidth_pos item.hopIndex
  have hlink := signedWidth_pos item.linkDelay
  have hjitter := signedWidth_pos item.hopJitter
  split <;> omega

theorem recordWidth_ge : 92 * (1 + t.nodeMeta.length) ≤ recordWidth t := by
  have hpacket := packetWidth_ge t
  rw [recordWidth]
  cases t.nodeMeta with
  | nil => exact hpacket
  | cons first items =>
      have hfirst := firstNodeWidth_ge t first
      have hitems : items.length * 92 ≤ (items.map (nodeWidth t)).sum := by
        have hsum := List.card_nsmul_le_sum (items.map (nodeWidth t)) 92
          (List.forall_mem_map.mpr fun item _ => nodeWidth_ge t item)
        rw [List.length_map] at hsum
        exact hsum
      rw [List.length_cons]
      change _ ≤ packetWidth t + (firstNodeWidth t first + (items.map (nodeWidth t)).sum)
      omega

variable (hsrc : t.srcIp.length ≤ 15) (hdst : t.dstIp.length ≤ 15)

include hsrc hdst

theorem tagsWidth_le : tagsWidth t ≤ 92 := by
  have hsrcp := unsignedWidth_le_five t.srcPort
  have hdstp := unsignedWidth_le_five t.dstPort
  have hprotocol := unsignedWidth_le_three t.protocol
  rw [tagsWidth]
  omega

theorem packetWidth_le : packetWidth t ≤ 286 := by
  have htags := tagsWidth_le t hsrc hdst
  have horig := unsignedWidth_le_twenty t.origTs
  have hdstTs := unsignedWidth_le_twenty t.dstTs
  have hseq := unsignedWidth_le_twenty t.seqNum
  have hdelay := unsignedWidth_le_twenty t.delay
  have hjitter := unsignedWidth_le_twenty t.sinkJitter
  have hreordering := signedWidth_le t.reordering
  rw [packetWidth]
  omega

theorem firstNodeWidth_le : firstNodeWidth t item ≤ 191 := by
  have htags := tagsWidth_le t hsrc hdst
  have hindex := unsignedWidth_le_three item.hopIndex
  have hdelay := unsignedWidth_le_twenty item.hopDelay
  have hjitter := unsignedWidth_le_twenty item.hopJitter
  have htime := unsignedWidth_le_twenty item.hopTimestamp
  rw [firstNodeWidth]
  omega

theorem nodeWidth_le : nodeWidth t item ≤ 223 := by
  have htags := tagsWidth_le t hsrc hdst
  have hindex := unsignedWidth_le_three item.hopIndex
  have hdelay := unsignedWidth_le_twenty item.hopDelay
  have hlink := signedWidth_le item.linkDelay
  have hjitter := signedWidth_le item.hopJitter
  have htime := unsignedWidth_le_twenty item.hopTimestamp
  rw [nodeWidth]
  split <;> omega

theorem recordWidth_le : recordWidth t ≤ 286 * (1 + t.nodeMeta.length) := by
  have hpacket := packetWidth_le t hsrc hdst
  rw [recordWidth]
  cases t.nodeMeta with
  | nil => exact hpacket
  | cons first items =>
      have hfirst := firstNodeWidth_le t first hsrc hdst
      have hitems : (items.map (nodeWidth t)).sum ≤ items.length * 223 := by
        have hsum := List.sum_le_card_nsmul (items.map (nodeWidth t)) 223
          (List.forall_mem_map.mpr fun item _ => nodeWidth_le t item hsrc hdst)
        rw [List.length_map] at hsum
        exact hsum
      rw [List.length_cons]
      change packetWidth t + (firstNodeWidth t first + (items.map (nodeWidth t)).sum) ≤ _
      omega

end Lines

end IntPlatform.Exporter.ReportWidths
