import IntPlatform.Exporter.ReportWidths
import IntPlatform.Exporter.Sender
import IntPlatform.Library.TextBuffer

namespace IntPlatform.Exporter.ReportBuffers

open Library.Numerals Library.TextBuffer Collector.Records Collector.ProcessPacket
open AddReport ReportWidths Sender

def packetFormat (tmp : List Char) (t : TelemetricHdr) : List Char :=
  tmp ++ " origts=".toList ++ unsigned t.origTs ++ ",dstts=".toList ++ unsigned t.dstTs ++
    ",seq=".toList ++ unsigned t.seqNum ++ ",delay=".toList ++ unsigned t.delay ++
    ",sink_jitter=".toList ++ unsigned t.sinkJitter ++ ",reordering=".toList ++ signed t.reordering ++
    " ".toList ++ unsigned t.dstTs ++ "\n".toList

structure BufferLoop extends ReportLoop where
  report : CharArray 400

def addNodeBuffered (tmp : CharArray 400) (s : BufferLoop) (item : TelemetricMeta) : Option BufferLoop := do
  let report ←
    if s.first then s.report.sprintf (firstNodeLine tmp.string item)
    else s.report.sprintf (nodeLine tmp.string item)
  pure ⟨⟨s.it + 1, s.data ++ report.string, false⟩, CharArray.zeros 400⟩

/-- add_report with the arrays report and tmp. There is no result when a
sprintf writes beyond its array. -/
def addReportBuffered (t : TelemetricHdr) (data : List Char) : Option (BitVec 32 × List Char) := do
  let tmp ← (CharArray.zeros 400).sprintf (tags t)
  let report ← (CharArray.zeros 400).sprintf (packetFormat tmp.string t)
  let s ← t.nodeMeta.foldlM (addNodeBuffered tmp)
    ⟨⟨1, data ++ report.string, true⟩, CharArray.zeros 400⟩
  pure (s.it, s.data)

theorem nulFree_dottedDecimal (text : List Char) (h : DottedDecimal text) : NulFree text :=
  h.notMem nul rfl (by decide)

theorem nulFree_unsigned {w : Nat} (v : BitVec w) : NulFree (unsigned v) :=
  notMem_toDigits 10 (by decide) (by decide) v.toNat nul rfl

theorem nulFree_signed {w : Nat} (v : BitVec w) : NulFree (signed v) := by
  have hdigits : NulFree (Nat.toDigits 10 v.toInt.natAbs) :=
    notMem_toDigits 10 (by decide) (by decide) _ nul rfl
  rw [signed]
  split
  · intro hmem
    rcases List.mem_cons.mp hmem with hminus | hmem
    · exact absurd hminus (by decide)
    · exact hdigits hmem
  · exact hdigits

section Lines

variable (t : TelemetricHdr) (hsrc : DottedDecimal t.srcIp) (hdst : DottedDecimal t.dstIp)

include hsrc hdst

theorem nulFree_tags : NulFree (tags t) := by
  have hsrc' := nulFree_dottedDecimal t.srcIp hsrc
  have hdst' := nulFree_dottedDecimal t.dstIp hdst
  unfold tags
  simp (disch := decide) only [nulFree_append, nulFree_unsigned, hsrc', hdst', nulFree_of_notMem, and_self]

theorem nulFree_packetLine : NulFree (packetLine t) := by
  have htags := nulFree_tags t hsrc hdst
  simp (disch := decide) only [packetLine, nulFree_append, htags, nulFree_unsigned, nulFree_signed,
    nulFree_of_notMem, and_self]

theorem nulFree_firstNodeLine (item : TelemetricMeta) : NulFree (firstNodeLine (tags t) item) := by
  have htags := nulFree_tags t hsrc hdst
  simp (disch := decide) only [firstNodeLine, nulFree_append, htags, nulFree_unsigned,
    nulFree_of_notMem, and_self]

theorem nulFree_nodeLine (item : TelemetricMeta) : NulFree (nodeLine (tags t) item) := by
  have htags := nulFree_tags t hsrc hdst
  rw [nodeLine]
  split
  · simp (disch := decide) only [nulFree_append, htags, nulFree_unsigned, nulFree_signed,
      nulFree_of_notMem, and_self]
  · simp (disch := decide) only [nulFree_append, htags, nulFree_unsigned, nulFree_signed,
      nulFree_of_notMem, and_self]

theorem addNodeBuffered_eq (tmp : CharArray 400) (htmp : tmp.string = tags t) (s : BufferLoop)
    (item : TelemetricMeta) :
    ∃ r, addNodeBuffered tmp s item = some r ∧ r.toReportLoop = addNode (tags t) s.toReportLoop item := by
  rw [addNodeBuffered, addNode, htmp]
  by_cases hfirst : s.first
  · have hfit : (firstNodeLine (tags t) item).length < 400 := by
      have hle := firstNodeWidth_le t item hsrc.length hdst.length
      rw [length_firstNodeLine]
      omega
    obtain ⟨report, hprint, hstring⟩ :=
      s.report.sprintf_string _ hfit (nulFree_firstNodeLine t hsrc hdst item)
    rw [if_pos hfirst, if_pos hfirst, hprint, ← hstring]
    exact ⟨_, rfl, rfl⟩
  · have hfit : (nodeLine (tags t) item).length < 400 := by
      have hle := nodeWidth_le t item hsrc.length hdst.length
      rw [length_nodeLine]
      omega
    obtain ⟨report, hprint, hstring⟩ :=
      s.report.sprintf_string _ hfit (nulFree_nodeLine t hsrc hdst item)
    rw [if_neg hfirst, if_neg hfirst, hprint, ← hstring, Bool.eq_false_iff.mpr hfirst]
    exact ⟨_, rfl, rfl⟩

theorem foldlM_addNodeBuffered (tmp : CharArray 400) (htmp : tmp.string = tags t)
    (items : List TelemetricMeta) (s : BufferLoop) :
    ∃ r, items.foldlM (addNodeBuffered tmp) s = some r ∧
      r.toReportLoop = items.foldl (addNode (tags t)) s.toReportLoop := by
  induction items generalizing s with
  | nil => exact ⟨s, rfl, rfl⟩
  | cons item items ih =>
      obtain ⟨r, hr, hloop⟩ := addNodeBuffered_eq t hsrc hdst tmp htmp s item
      rw [List.foldlM_cons, hr, List.foldl_cons, ← hloop]
      exact ih r

theorem addReportBuffered_eq (data : List Char) : addReportBuffered t data = some (addReport t data) := by
  have htags : (tags t).length < 400 := by
    have hle := tagsWidth_le t hsrc.length hdst.length
    rw [length_tags]
    omega
  have hpacket : (packetLine t).length < 400 := by
    have hle := packetWidth_le t hsrc.length hdst.length
    rw [length_packetLine]
    omega
  obtain ⟨tmp, htmp, hstring⟩ :=
    (CharArray.zeros 400).sprintf_string _ htags (nulFree_tags t hsrc hdst)
  obtain ⟨report, hreport, htext⟩ :=
    (CharArray.zeros 400).sprintf_string _ hpacket (nulFree_packetLine t hsrc hdst)
  have hformat : packetFormat tmp.string t = packetLine t := by
    rw [hstring]
    rfl
  obtain ⟨s, hs, hloop⟩ := foldlM_addNodeBuffered t hsrc hdst tmp hstring t.nodeMeta
    ⟨⟨1, data ++ report.string, true⟩, CharArray.zeros 400⟩
  rw [htext] at hs hloop
  rw [addReportBuffered, htmp, Option.bind_eq_bind, Option.bind_some, hformat, hreport,
    Option.bind_eq_bind, Option.bind_some, htext, hs, addReport, ← hloop]
  rfl

end Lines

theorem toInt_ofNat_eq_iff (n : Nat) : (BitVec.ofNat 32 n).toInt = n ↔ n < 2 ^ 31 := by
  constructor
  · intro h
    have hlt := (BitVec.ofNat 32 n).toInt_lt
    omega
  · intro h
    have hmod : n % 2 ^ 32 = n := Nat.mod_eq_of_lt (by omega)
    rw [BitVec.toInt_eq_toNat_of_lt, BitVec.toNat_ofNat, hmod]
    rw [BitVec.toNat_ofNat, hmod]
    omega

theorem count_eq_lines_iff (t : TelemetricHdr) (hsrc : DottedDecimal t.srcIp) (hdst : DottedDecimal t.dstIp) :
    (BitVec.ofNat 32 (1 + t.nodeMeta.length)).toInt = lines (report t) ↔
      t.nodeMeta.length ≤ 2 ^ 31 - 2 := by
  rw [lines_report_eq t hsrc hdst, toInt_ofNat_eq_iff]
  omega

/-- For every record and any number of hops no text runs over report or tmp.
The count is that of the lines that were appended as long as it fits an int. -/
theorem buffers_suffice (t : TelemetricHdr) (hsrc : DottedDecimal t.srcIp) (hdst : DottedDecimal t.dstIp)
    (data : List Char) :
    ∃ it text, addReportBuffered t data = some (it, data ++ text) ∧
      (it.toInt = lines text ↔ t.nodeMeta.length ≤ 2 ^ 31 - 2) := by
  refine ⟨_, _, ?_, count_eq_lines_iff t hsrc hdst⟩
  rw [addReportBuffered_eq t hsrc hdst, addReport_eq]

theorem buffers_suffice_sample :
    ∃ it text, addReportBuffered oneHop [] = some (it, [] ++ text) ∧ it.toInt = lines text := by
  obtain ⟨it, text, hadd, hcount⟩ :=
    buffers_suffice oneHop oneHop_exported.dottedDecimal.1 oneHop_exported.dottedDecimal.2 []
  exact ⟨it, text, hadd, hcount.mpr (by decide)⟩

def manyHops (n : Nat) : TelemetricHdr := { oneHop with nodeMeta := List.replicate n default }

theorem lines_manyHops (n : Nat) (data : List Char) :
    addReportBuffered (manyHops n) data = some (BitVec.ofNat 32 (1 + n), data ++ report (manyHops n)) ∧
      lines (report (manyHops n)) = 1 + n := by
  have hsrc : DottedDecimal (manyHops n).srcIp := oneHop_exported.dottedDecimal.1
  have hdst : DottedDecimal (manyHops n).dstIp := oneHop_exported.dottedDecimal.2
  have hlen : (manyHops n).nodeMeta.length = n := List.length_replicate
  rw [addReportBuffered_eq _ hsrc hdst, addReport_eq, lines_report_eq _ hsrc hdst, hlen]
  exact ⟨rfl, rfl⟩

/-- With 2^31 - 1 entries the count is negative. -/
theorem count_negative :
    ∃ it text, addReportBuffered (manyHops (2 ^ 31 - 1)) [] = some (it, [] ++ text) ∧
      lines text = 2 ^ 31 ∧ it.toInt = -2 ^ 31 := by
  obtain ⟨hreport, hlines⟩ := lines_manyHops (2 ^ 31 - 1) []
  exact ⟨_, _, hreport, hlines, rfl⟩

end IntPlatform.Exporter.ReportBuffers
