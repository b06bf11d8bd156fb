import IntPlatform.Library.LineProtocol
import IntPlatform.Collector.Buffers
import IntPlatform.Exporter.AddReport

namespace IntPlatform.Exporter.LineProtocol

open Library.Numerals Library.LineProtocol Library.Formats Collector.Records Collector.ProcessPacket
open Collector.Outcome Collector.Buffers AddReport

def tagEntries (t : TelemetricHdr) : List (List Char × List Char) :=
  [("srcip".toList, t.srcIp), ("dstip".toList, t.dstIp), ("srcp".toList, unsigned t.srcPort),
    ("dstp".toList, unsigned t.dstPort), ("protocol".toList, unsigned t.protocol)]

def packetPoint (t : TelemetricHdr) : Point where
  measurement := "int_telemetry".toList
  tags := tagEntries t
  fields := [("origts".toList, unsigned t.origTs), ("dstts".toList, unsigned t.dstTs),
    ("seq".toList, unsigned t.seqNum), ("delay".toList, unsigned t.delay),
    ("sink_jitter".toList, unsigned t.sinkJitter), ("reordering".toList, signed t.reordering)]
  timestamp := unsigned t.dstTs

def firstNodePoint (t : TelemetricHdr) (item : TelemetricMeta) : Point where
  measurement := "int_telemetry".toList
  tags := tagEntries t ++ [("hop_index".toList, unsigned item.hopIndex)]
  fields := [("hop_delay".toList, unsigned item.hopDelay), ("hop_jitter".toList, unsigned item.hopJitter)]
  timestamp := unsigned item.hopTimestamp

def nodePoint (t : TelemetricHdr) (item : TelemetricMeta) : Point where
  measurement := "int_telemetry".toList
  tags := tagEntries t ++ [("hop_index".toList, unsigned item.hopIndex)]
  fields := (if item.hopDelay ≠ 0 then [("hop_delay".toList, unsigned item.hopDelay)] else []) ++
    [("link_delay".toList, signed item.linkDelay), ("hop_jitter".toList, signed item.hopJitter)]
  timestamp := unsigned item.hopTimestamp

def nodePoints (t : TelemetricHdr) : List TelemetricMeta → List Point
  | [] => []
  | first :: items => firstNodePoint t first :: items.map (nodePoint t)

def points (t : TelemetricHdr) : List Point := packetPoint t :: nodePoints t t.nodeMeta

theorem tags_eq (t : TelemetricHdr) :
    tags t = [','].intercalate ("int_telemetry".toList :: (tagEntries t).map entry) := by
  have hsrcip : "int_telemetry,srcip=".toList = "int_telemetry".toList ++ ',' :: ("srcip".toList ++ ['=']) := by
    decide
  have hdstip : ",dstip=".toList = ',' :: ("dstip".toList ++ ['=']) := by decide
  have hsrcp : ",srcp=".toList = ',' :: ("srcp".toList ++ ['=']) := by decide
  have hdstp : ",dstp=".toList = ',' :: ("dstp".toList ++ ['=']) := by decide
  have hprotocol : ",protocol=".toList = ',' :: ("protocol".toList ++ ['=']) := by decide
  unfold tags tagEntries
  rw [hsrcip, hdstip, hsrcp, hdstp, hprotocol]
  simp only [List.map_cons, List.map_nil, entry, List.intercalate_cons_cons, List.intercalate_singleton,
    List.append_assoc, List.cons_append, List.nil_append]

theorem tags_hopIndex (t : TelemetricHdr) (item : TelemetricMeta) :
    tags t ++ ",hop_index=".toList ++ unsigned item.hopIndex =
      [','].intercalate ("int_telemetry".toList ::
        (tagEntries t ++ [("hop_index".toList, unsigned item.hopIndex)]).map entry) := by
  have hkey : ",hop_index=".toList = ',' :: ("hop_index".toList ++ ['=']) := by decide
  rw [List.map_append, List.map_singleton, intercalate_concat, ← tags_eq, hkey, entry]
  simp only [List.append_assoc, List.cons_append, List.nil_append]

theorem packetLine_eq (t : TelemetricHdr) : packetLine t = (packetPoint t).write ++ ['\n'] := by
  have horigts : " origts=".toList = ' ' :: ("origts".toList ++ ['=']) := by decide
  have hdstts : ",dstts=".toList = ',' :: ("dstts".toList ++ ['=']) := by decide
  have hseq : ",seq=".toList = ',' :: ("seq".toList ++ ['=']) := by decide
  have hdelay : ",delay=".toList = ',' :: ("delay".toList ++ ['=']) := by decide
  have hjitter : ",sink_jitter=".toList = ',' :: ("sink_jitter".toList ++ ['=']) := by decide
  have hreordering : ",reordering=".toList = ',' :: ("reordering".toList ++ ['=']) := by decide
  have hblank : " ".toList = [' '] := by decide
  have hnewline : "\n".toList = ['\n'] := by decide
  rw [write_eq]
  unfold packetLine packetPoint
  rw [horigts, hdstts, hseq, hdelay, hjitter, hreordering, hblank, hnewline, ← tags_eq]
  simp only [List.map_cons, List.map_nil, entry, List.intercalate_cons_cons, List.intercalate_singleton,
    List.append_assoc, List.cons_append, List.nil_append]

theorem firstNodeLine_eq (t : TelemetricHdr) (item : TelemetricMeta) :
    firstNodeLine (tags t) item = (firstNodePoint t item).write ++ ['\n'] := by
  have hdelay : " hop_delay=".toList = ' ' :: ("hop_delay".toList ++ ['=']) := by decide
  have hjitter : ",hop_jitter=".toList = ',' :: ("hop_jitter".toList ++ ['=']) := by decide
  have hblank : " ".toList = [' '] := by decide
  have hnewline : "\n".toList = ['\n'] := by decide
  rw [write_eq]
  unfold firstNodeLine firstNodePoint
  rw [hdelay, hjitter, hblank, hnewline, tags_hopIndex]
  simp only [List.map_cons, List.map_nil, entry, List.intercalate_cons_cons, List.intercalate_singleton,
    List.append_assoc, List.cons_append, List.nil_append]

theorem nodeLine_eq (t : TelemetricHdr) (item : TelemetricMeta) :
    nodeLine (tags t) item = (nodePoint t item).write ++ ['\n'] := by
  have hdelay : " hop_delay=".toList = ' ' :: ("hop_delay".toList ++ ['=']) := by decide
  have hlink : ",link_delay=".toList = ',' :: ("link_delay".toList ++ ['=']) := by decide
  have hlink' : " link_delay=".toList = ' ' :: ("link_delay".toList ++ ['=']) := by decide
  have hjitter : ",hop_jitter=".toList = ',' :: ("hop_jitter".toList ++ ['=']) := by decide
  have hblank : " ".toList = [' '] := by decide
  have hnewline : "\n".toList = ['\n'] := by decide
  rw [write_eq]
  unfold nodeLine nodePoint
  rw [hdelay, hlink, hlink', hjitter, hblank, hnewline, tags_hopIndex]
  split
  · simp only [List.map_cons, List.map_nil, entry, List.intercalate_cons_cons, List.intercalate_singleton,
      List.append_assoc, List.cons_append, List.nil_append]
  · simp only [List.map_cons, List.map_nil, entry, List.intercalate_cons_cons, List.intercalate_singleton,
      List.append_assoc, List.cons_append, List.nil_append]

theorem report_eq (t : TelemetricHdr) : report t = body (points t) := by
  rw [report, points, body, List.flatMap_cons, ← packetLine_eq]
  cases t.nodeMeta with
  | nil => rfl
  | cons first items =>
      have hrest : items.flatMap (nodeLine (tags t)) = body (items.map (nodePoint t)) := by
        rw [body, List.flatMap_map]
        exact congrArg items.flatMap (funext fun item => nodeLine_eq t item)
      rw [nodeLines, nodePoints, List.flatMap_cons, firstNodeLine_eq, hrest]
      rfl

def exported (records : List TelemetricHdr) : List Char :=
  records.foldl (fun data t => (addReport t data).2) []

theorem exported_eq (records : List TelemetricHdr) : exported records = body (records.flatMap points) := by
  have h (data : List Char) : records.foldl (fun data t => (addReport t data).2) data =
      data ++ body (records.flatMap points) := by
    induction records generalizing data with
    | nil => exact (List.append_nil data).symm
    | cons t records ih =>
        rw [List.foldl_cons, ih, addReport_eq, report_eq, List.flatMap_cons, body_append, List.append_assoc]
  exact h []

section Plain

theorem plain_toDigits (n : Nat) : Plain (Nat.toDigits 10 n) := by
  intro c hc
  apply notMem_toDigits 10 (by decide) (by decide)
  simp only [List.mem_cons, List.not_mem_nil, or_false] at hc
  rcases hc with rfl | rfl | rfl | rfl
  · rfl
  · rfl
  · rfl
  · rfl

theorem plain_unsigned {w : Nat} (v : BitVec w) : Plain (unsigned v) := plain_toDigits _

theorem plain_signed {w : Nat} (v : BitVec w) : Plain (signed v) := by
  rw [signed]
  split
  · intro c hc
    rw [List.mem_cons, not_or]
    refine ⟨?_, plain_toDigits _ c hc⟩
    rintro rfl
    revert hc
    decide
  · exact plain_toDigits _

theorem plain_inetNtop (addr : BitVec 32) : Plain (inetNtop addr) := by
  intro c hc
  apply notMem_intercalate
  · rintro rfl
    revert hc
    decide
  · intro part hpart
    obtain ⟨b, -, rfl⟩ := List.mem_map.mp hpart
    exact plain_toDigits _ c hc

theorem plain_entry (key : String) (value : List Char) (hkey : Plain key.toList) (hvalue : Plain value) :
    Plain (key.toList, value).1 ∧ Plain (key.toList, value).2 := ⟨hkey, hvalue⟩

variable (t : TelemetricHdr) (ht : Exported t)

include ht

theorem plain_tagEntries : ∀ e ∈ tagEntries t, Plain e.1 ∧ Plain e.2 := by
  obtain ⟨src, hsrc⟩ := ht.srcIp
  obtain ⟨dst, hdst⟩ := ht.dstIp
  intro e he
  unfold tagEntries at he
  rw [hsrc, hdst] at he
  simp only [List.mem_cons, List.not_mem_nil, or_false] at he
  rcases he with rfl | rfl | rfl | rfl | rfl
  · exact plain_entry "srcip" _ (by decide) (plain_inetNtop src)
  · exact plain_entry "dstip" _ (by decide) (plain_inetNtop dst)
  · exact plain_entry "srcp" _ (by decide) (plain_unsigned _)
  · exact plain_entry "dstp" _ (by decide) (plain_unsigned _)
  · exact plain_entry "protocol" _ (by decide) (plain_unsigned _)

theorem plain_packetPoint : (packetPoint t).Plain := by
  have hname : Plain "int_telemetry".toList := by decide
  refine ⟨hname, plain_tagEntries t ht, ?_, List.cons_ne_nil _ _, plain_unsigned _⟩
  intro e he
  unfold packetPoint at he
  simp only [List.mem_cons, List.not_mem_nil, or_false] at he
  rcases he with rfl | rfl | rfl | rfl | rfl | rfl
  · exact plain_entry "origts" _ (by decide) (plain_unsigned _)
  · exact plain_entry "dstts" _ (by decide) (plain_unsigned _)
  · exact plain_entry "seq" _ (by decide) (plain_unsigned _)
  · exact plain_entry "delay" _ (by decide) (plain_unsigned _)
  · exact plain_entry "sink_jitter" _ (by decide) (plain_unsigned _)
  · exact plain_entry "reordering" _ (by decide) (plain_signed _)

theorem plain_hopTags (item : TelemetricMeta) :
    ∀ e ∈ tagEntries t ++ [("hop_index".toList, unsigned item.hopIndex)], Plain e.1 ∧ Plain e.2 := by
  intro e he
  rcases List.mem_append.mp he with he | he
  · exact plain_tagEntries t ht e he
  · rw [List.mem_singleton.mp he]
    exact plain_entry "hop_index" _ (by decide) (plain_unsigned _)

theorem plain_firstNodePoint (item : TelemetricMeta) : (firstNodePoint t item).Plain := by
  have hname : Plain "int_telemetry".toList := by decide
  refine ⟨hname, plain_hopTags t ht item, ?_, List.cons_ne_nil _ _, plain_unsigned _⟩
  intro e he
  unfold firstNodePoint at he
  simp only [List.mem_cons, List.not_mem_nil, or_false] at he
  rcases he with rfl | rfl
  · exact plain_entry "hop_delay" _ (by decide) (plain_unsigned _)
  · exact plain_entry "hop_jitter" _ (by decide) (plain_unsigned _)

theorem plain_nodePoint (item : TelemetricMeta) : (nodePoint t item).Plain := by
  have hname : Plain "int_telemetry".toList := by decide
  refine ⟨hname, plain_hopTags t ht item, ?_,
    List.append_ne_nil_of_right_ne_nil _ (List.cons_ne_nil _ _), plain_unsigned _⟩
  intro e he
  unfold nodePoint at he
  rcases List.mem_append.mp he with he | he
  · split at he
    · rw [List.mem_singleton.mp he]
      exact plain_entry "hop_delay" _ (by decide) (plain_unsigned _)
    · cases he
  · simp only [List.mem_cons, List.not_mem_nil, or_false] at he
    rcases he with rfl | rfl
    · exact plain_entry "link_delay" _ (by decide) (plain_signed _)
    · exact plain_entry "hop_jitter" _ (by decide) (plain_signed _)

theorem plain_points : ∀ p ∈ points t, p.Plain := by
  have hnodes : ∀ p ∈ nodePoints t t.nodeMeta, p.Plain := by
    cases t.nodeMeta with
    | nil =>
        intro p hp
        cases hp
    | cons first items =>
        intro p hp
        rcases List.mem_cons.mp hp with rfl | hp
        · exact plain_firstNodePoint t ht first
        · obtain ⟨item, -, rfl⟩ := List.mem_map.mp hp
          exact plain_nodePoint t ht item
  intro p hp
  rcases List.mem_cons.mp hp with rfl | hp
  · exact plain_packetPoint t ht
  · exact hnodes p hp

end Plain

theorem integer_unsigned {w : Nat} (v : BitVec w) : integer (unsigned v) = some (v.toNat : Int) :=
  integer_toDigits v.toNat

theorem integer_signed {w : Nat} (v : BitVec w) : integer (signed v) = some v.toInt := by
  rw [signed]
  split
  · rw [integer_minus]
    congr 1
    omega
  · rw [integer_toDigits]
    congr 1
    omega

def readHop (p : Point) : Option TelemetricMeta := do
  let linkDelay ← p.numberOrZero "link_delay"
  let hopDelay ← p.numberOrZero "hop_delay"
  let hopJitter ← p.number "hop_jitter"
  let hopIndex ← p.tagNumber "hop_index"
  let hopTimestamp ← integer p.timestamp
  pure ⟨BitVec.ofInt 64 linkDelay, BitVec.ofInt 64 hopDelay, BitVec.ofInt 64 hopJitter,
    BitVec.ofInt 8 hopIndex, BitVec.ofInt 64 hopTimestamp⟩

def readPacket (p : Point) (nodeMeta : List TelemetricMeta) : Option TelemetricHdr := do
  let srcIp ← p.tag "srcip"
  let dstIp ← p.tag "dstip"
  let srcPort ← p.tagNumber "srcp"
  let dstPort ← p.tagNumber "dstp"
  let origTs ← p.number "origts"
  let dstTs ← p.number "dstts"
  let protocol ← p.tagNumber "protocol"
  let seqNum ← p.number "seq"
  let delay ← p.number "delay"
  let sinkJitter ← p.number "sink_jitter"
  let reordering ← p.number "reordering"
  pure ⟨srcIp, dstIp, BitVec.ofInt 16 srcPort, BitVec.ofInt 16 dstPort, BitVec.ofInt 64 origTs,
    BitVec.ofInt 64 dstTs, BitVec.ofInt 8 protocol, BitVec.ofInt 64 seqNum, BitVec.ofInt 64 delay,
    BitVec.ofInt 64 sinkJitter, BitVec.ofInt 64 reordering, nodeMeta⟩

def gather : List Point → Option (List TelemetricMeta × List TelemetricHdr)
  | [] => some ([], [])
  | p :: points => do
      let (nodes, records) ← gather points
      match p.tag "hop_index" with
      | some _ =>
          let node ← readHop p
          pure (node :: nodes, records)
      | none =>
          let t ← readPacket p nodes
          pure ([], t :: records)

def decode (text : List Char) : Option (List TelemetricHdr) := do
  let points ← readBody text
  match ← gather points with
  | ([], records) => pure records
  | (_ :: _, _) => none

theorem ofInt_toNat {w : Nat} (v : BitVec w) : BitVec.ofInt w (v.toNat : Int) = v := by
  rw [BitVec.ofInt_natCast, BitVec.ofNat_toNat, BitVec.setWidth_eq]

theorem readPacket_packetPoint (t : TelemetricHdr) (nodes : List TelemetricMeta) :
    readPacket (packetPoint t) nodes = some { t with nodeMeta := nodes } := by
  unfold readPacket Point.tagNumber Point.number Point.tag Point.field packetPoint tagEntries
  simp (disch := decide) only [List.lookup_cons_self, lookup_of_ne, Option.bind_some, integer_unsigned,
    integer_signed, ofInt_toNat, BitVec.ofInt_toInt, Option.bind_eq_bind]
  rfl

theorem readHop_firstNodePoint (t : TelemetricHdr) (item : TelemetricMeta) :
    readHop (firstNodePoint t item) = some { item with linkDelay := 0 } := by
  unfold readHop Point.tagNumber Point.number Point.numberOrZero Point.tag Point.field firstNodePoint
    tagEntries
  simp (disch := decide) only [List.lookup_cons_self, lookup_of_ne, Option.bind_some, integer_unsigned,
    ofInt_toNat, Option.bind_eq_bind, List.cons_append, List.nil_append, List.lookup_nil, Option.elim_none,
    Option.elim_some]
  rfl

theorem readHop_nodePoint (t : TelemetricHdr) (item : TelemetricMeta) :
    readHop (nodePoint t item) = some item := by
  unfold readHop Point.tagNumber Point.number Point.numberOrZero Point.tag Point.field nodePoint tagEntries
  by_cases hz : item.hopDelay ≠ 0
  · rw [if_pos hz]
    simp (disch := decide) only [List.lookup_cons_self, lookup_of_ne, Option.bind_some, integer_unsigned,
      integer_signed, ofInt_toNat, BitVec.ofInt_toInt, Option.bind_eq_bind, List.cons_append,
      List.nil_append, Option.elim_some]
    rfl
  · rw [if_neg hz]
    simp (disch := decide) only [List.lookup_cons_self, lookup_of_ne, Option.bind_some, integer_unsigned,
      integer_signed, ofInt_toNat, BitVec.ofInt_toInt, Option.bind_eq_bind, List.cons_append,
      List.nil_append, List.lookup_nil, Option.elim_none, Option.elim_some]
    rw [not_ne_iff] at hz
    cases item
    cases hz
    rfl

section Tags

variable (t : TelemetricHdr) (item : TelemetricMeta)

theorem tag_packetPoint : (packetPoint t).tag "hop_index" = none := by
  unfold Point.tag packetPoint tagEntries
  simp (disch := decide) only [lookup_of_ne, List.lookup_nil]

theorem lookup_hopIndex : (tagEntries t ++ [("hop_index".toList, unsigned item.hopIndex)]).lookup
    "hop_index".toList = some (unsigned item.hopIndex) := by
  unfold tagEntries
  simp (disch := decide) only [List.cons_append, List.nil_append, lookup_of_ne, List.lookup_cons_self]

theorem tag_firstNodePoint : (firstNodePoint t item).tag "hop_index" = some (unsigned item.hopIndex) :=
  lookup_hopIndex t item

theorem tag_nodePoint : (nodePoint t item).tag "hop_index" = some (unsigned item.hopIndex) :=
  lookup_hopIndex t item

end Tags

def withoutFrontDelay : List TelemetricMeta → List TelemetricMeta
  | [] => []
  | first :: items => { first with linkDelay := 0 } :: items

def printed (t : TelemetricHdr) : TelemetricHdr := { t with nodeMeta := withoutFrontDelay t.nodeMeta }

theorem gather_packetPoint (p : Point) (nodes : List TelemetricMeta) (t : TelemetricHdr)
    (htag : p.tag "hop_index" = none) (hread : readPacket p nodes = some t) (rest : List Point)
    (records : List TelemetricHdr) (h : gather rest = some (nodes, records)) :
    gather (p :: rest) = some ([], t :: records) := by
  simp only [gather, h, htag, hread, Option.bind_eq_bind, Option.bind_some]
  rfl

theorem gather_nodePoint (p : Point) (node : TelemetricMeta) (tag : List Char)
    (htag : p.tag "hop_index" = some tag) (hread : readHop p = some node) (rest : List Point)
    (nodes : List TelemetricMeta) (records : List TelemetricHdr)
    (h : gather rest = some (nodes, records)) : gather (p :: rest) = some (node :: nodes, records) := by
  simp only [gather, h, htag, hread, Option.bind_eq_bind, Option.bind_some]
  rfl

theorem gather_nodePoints (t : TelemetricHdr) (items : List TelemetricMeta) (rest : List Point)
    (records : List TelemetricHdr) (h : gather rest = some ([], records)) :
    gather (nodePoints t items ++ rest) = some (withoutFrontDelay items, records) := by
  have hmap (items : List TelemetricMeta) :
      gather (items.map (nodePoint t) ++ rest) = some (items, records) := by
    induction items with
    | nil => exact h
    | cons item items ih =>
        exact gather_nodePoint _ _ _ (tag_nodePoint t item) (readHop_nodePoint t item) _ _ _ ih
  cases items with
  | nil => exact h
  | cons first items =>
      exact gather_nodePoint _ _ _ (tag_firstNodePoint t first) (readHop_firstNodePoint t first) _ _ _
        (hmap items)

theorem gather_points (t : TelemetricHdr) (rest : List Point) (records : List TelemetricHdr)
    (h : gather rest = some ([], records)) :
    gather (points t ++ rest) = some ([], printed t :: records) := by
  exact gather_packetPoint _ _ _ (tag_packetPoint t) (readPacket_packetPoint t _) _ _
    (gather_nodePoints t t.nodeMeta rest records h)

theorem decode_exported (records : List TelemetricHdr) (h : ∀ t ∈ records, Exported t) :
    decode (exported records) = some (records.map printed) := by
  have hgather : gather (records.flatMap points) = some ([], records.map printed) := by
    clear h
    induction records with
    | nil => rfl
    | cons t records ih => rw [List.flatMap_cons, gather_points t _ _ ih, List.map_cons]
  have hread : readBody (body (records.flatMap points)) = some (records.flatMap points) := by
    apply readBody_body
    intro p hp
    obtain ⟨t, ht, hp⟩ := List.mem_flatMap.mp hp
    exact plain_points t (h t ht) p hp
  rw [decode, exported_eq, hread]
  change (gather (records.flatMap points) >>= _) = _
  rw [hgather]
  rfl

/-- A record that process_packet passes on, in any state of the collector, within
its table or behind it, and for any content of the buffer. -/
def Produced (t : TelemetricHdr) : Prop :=
  ∃ (slots : Nat) (opt : Options) (st : Globals slots) (buffer : List Byte) (st' : Globals slots),
    buffer.length = pktBufSize ∧ processPacket opt st buffer = .ok (t, st')

theorem produced_exported (t : TelemetricHdr) (h : Produced t) : Exported t := by
  obtain ⟨_, opt, st, buffer, st', hlen, hp⟩ := h
  exact processPacket_exported opt st buffer hlen _ hp

theorem printed_eq_self (t : TelemetricHdr) (h : Produced t) (hone : 1 < t.nodeMeta.length) :
    printed t = t := by
  obtain ⟨_, opt, st, buffer, st', hlen, hp⟩ := h
  obtain ⟨-, -, hr⟩ := processPacket_buffer_ok opt st buffer hlen _ hp
  have ht : t.nodeMeta = nodeRecords st.prevTimestamps 0 (ntoh64 (frontNode (regionOf buffer)).egressTstamp)
      (announced buffer) ++ [sinkRecord st.prevTimestamps (announced buffer).length (lastEgress 0
        (ntoh64 (frontNode (regionOf buffer)).egressTstamp) (announced buffer))
        (ntoh64 (influxOf buffer).ndkTstamp)] := by
    have := congrArg (fun r => r.1.nodeMeta) hr
    dsimp only at this
    rw [this, recorded, cutTimestamps_nodeMeta]
    rfl
  have hfront : withoutFrontDelay t.nodeMeta = t.nodeMeta := by
    rw [ht] at hone ⊢
    cases hnodes : announced buffer with
    | nil =>
        rw [hnodes] at hone
        exact absurd hone (Nat.lt_irrefl 1)
    | cons first nodes => rfl
  rw [printed, hfront]

theorem points_printed (t : TelemetricHdr) : points (printed t) = points t := by
  cases t with
  | mk srcIp dstIp srcPort dstPort origTs dstTs protocol seqNum delay sinkJitter reordering nodeMeta =>
      cases nodeMeta with
      | nil => rfl
      | cons first items => rfl

theorem exported_congr (records others : List TelemetricHdr)
    (h : records.map printed = others.map printed) : exported records = exported others := by
  have hpoints (l : List TelemetricHdr) : l.flatMap points = (l.map printed).flatMap points := by
    rw [List.flatMap_map]
    exact congrArg l.flatMap (funext fun t => (points_printed t).symm)
  rw [exported_eq, exported_eq, hpoints, h, ← hpoints]

/-- The records of the collector can be read back from the text. What is lost
is the link delay of a report without nodes, whose only hop is the sink. -/
theorem lineProtocol_lossless (records : List TelemetricHdr) (h : ∀ t ∈ records, Produced t) :
    decode (exported records) = some (records.map printed) ∧
      (∀ t ∈ records, 1 < t.nodeMeta.length → printed t = t) ∧
      ∀ others : List TelemetricHdr, (∀ t ∈ others, Produced t) →
        (exported records = exported others ↔ records.map printed = others.map printed) ∧
        ((∀ t ∈ records, 1 < t.nodeMeta.length) → (∀ t ∈ others, 1 < t.nodeMeta.length) →
          exported records = exported others → records = others) := by
  have hread (l : List TelemetricHdr) (hl : ∀ t ∈ l, Produced t) :
      decode (exported l) = some (l.map printed) :=
    decode_exported l fun t ht => produced_exported t (hl t ht)
  have hself (l : List TelemetricHdr) (hl : ∀ t ∈ l, Produced t)
      (hone : ∀ t ∈ l, 1 < t.nodeMeta.length) : l.map printed = l := by
    have hmap := List.map_congr_left fun t ht => printed_eq_self t (hl t ht) (hone t ht)
    rw [hmap, List.map_id']
  refine ⟨hread records h, fun t ht => printed_eq_self t (h t ht), ?_⟩
  intro others ho
  have hiff : exported records = exported others ↔ records.map printed = others.map printed := by
    constructor
    · intro he
      have hdecode := hread records h
      rw [he, hread others ho] at hdecode
      exact (Option.some.inj hdecode).symm
    · exact exported_congr records others
  refine ⟨hiff, ?_⟩
  intro hrecords hothers he
  rw [← hself records h hrecords, hiff.mp he, hself others ho hothers]

section NoNodes

def bareHeader : IntInflux := ⟨0, 0, 0, 0, 0, 6, (0, 0), 0, 0, 0⟩

def bareBuffer (egress : BitVec 64) : List Byte :=
  List.replicate 14 0 ++ (intInfluxCodec.encode bareHeader ++
    ([].flatMap intMetaCodec.encode ++ (intMetaCodec.encode ⟨0, 0, 0, 0, egress⟩ ++
      List.replicate (pktBufSize - 74) 0)))

def bareRecord (egress : BitVec 64) : TelemetricHdr :=
  recordOf State.initial bareHeader [] ⟨0, 0, 0, 0, egress⟩

theorem bareRecord_produced (egress : BitVec 64) : Produced (bareRecord egress) := by
  have hlen : (bareBuffer egress).length = pktBufSize := by
    simp only [bareBuffer, List.length_append, List.length_replicate, Codec.encode_length,
      List.flatMap_nil, List.length_nil]
    rfl
  have hfront : frontNode ([].flatMap intMetaCodec.encode ++ (intMetaCodec.encode ⟨0, 0, 0, 0, egress⟩ ++
      List.replicate (pktBufSize - 74) 0)) = ⟨0, 0, 0, 0, egress⟩ := by
    rw [frontNode, List.flatMap_nil, List.nil_append, List.take_left' (intMetaCodec.encode_length _),
      intMetaCodec.decode_encode]
  have hp := processPacket_report ⟨1, 0, 1, 0⟩ State.initial (List.replicate 14 0)
    (intMetaCodec.encode ⟨0, 0, 0, 0, egress⟩ ++ List.replicate (pktBufSize - 74) 0) bareHeader []
    List.length_replicate (by decide) (by decide) (by decide) (by
      rw [List.flatMap_nil, List.nil_append, List.length_append, Codec.encode_length]
      exact Nat.le_add_right _ _)
  rw [hfront] at hp
  exact ⟨maxNodes, _, _, bareBuffer egress, _, hlen, hp⟩

theorem bareRecords_read : decode (exported [bareRecord 0, bareRecord 1]) =
    some [printed (bareRecord 0), printed (bareRecord 1)] := by
  have h : ∀ t ∈ [bareRecord 0, bareRecord 1], Produced t := by
    intro t ht
    simp only [List.mem_cons, List.not_mem_nil, or_false] at ht
    rcases ht with rfl | rfl
    · exact bareRecord_produced 0
    · exact bareRecord_produced 1
  exact (lineProtocol_lossless [bareRecord 0, bareRecord 1] h).1

/-- Without nodes, the link delay to the sink does not reach the text. -/
theorem lineProtocol_bare : ¬ ∀ records others : List TelemetricHdr, (∀ t ∈ records, Produced t) →
    (∀ t ∈ others, Produced t) → exported records = exported others → records = others := by
  intro h
  have hmem (egress : BitVec 64) : ∀ t ∈ [bareRecord egress], Produced t := by
    intro t ht
    rw [List.mem_singleton.mp ht]
    exact bareRecord_produced egress
  have heq := h [bareRecord 0] [bareRecord 1] (hmem 0) (hmem 1) (exported_congr _ _ (by decide))
  revert heq
  decide

end NoNodes

end IntPlatform.Exporter.LineProtocol
