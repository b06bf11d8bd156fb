import IntPlatform.Library.Formats

namespace IntPlatform.Collector.Records

open Library.Formats

/-- The report header as the collector loads it on a little-endian host. -/
structure IntInflux where
  srcAddr : BitVec 32
  dstAddr : BitVec 32
  ingressPortId : BitVec 16
  egressPortId : BitVec 16
  metaLen : BitVec 8
  hopMetaLen : BitVec 8
  rsvd1 : Byte × Byte
  ndkTstamp : BitVec 64
  delay : BitVec 64
  seq : BitVec 32
deriving DecidableEq, Repr

structure IntMeta where
  switchId : BitVec 32
  ingressPortId : BitVec 16
  egressPortId : BitVec 16
  ingressTstamp : BitVec 64
  egressTstamp : BitVec 64
deriving DecidableEq, Repr

def intInfluxCodec : Codec IntInflux :=
  along
    (pair le32 <| pair le32 <| pair le16 <| pair le16 <| pair byte <| pair byte <|
      pair (pair byte byte) <| pair le64 <| pair le64 le32)
    { toFun := fun ⟨src, dst, inPort, outPort, metaLen, hopMetaLen, rsvd1, ndk, delay, seq⟩ =>
        ⟨src, dst, inPort, outPort, metaLen, hopMetaLen, rsvd1, ndk, delay, seq⟩
      invFun := fun h => (h.srcAddr, h.dstAddr, h.ingressPortId, h.egressPortId, h.metaLen,
        h.hopMetaLen, h.rsvd1, h.ndkTstamp, h.delay, h.seq)
      left_inv := fun _ => rfl
      right_inv := fun _ => rfl }

def intMetaCodec : Codec IntMeta :=
  along (pair le32 <| pair le16 <| pair le16 <| pair le64 le64)
    { toFun := fun ⟨switchId, inPort, outPort, ingress, egress⟩ =>
        ⟨switchId, inPort, outPort, ingress, egress⟩
      invFun := fun h => (h.switchId, h.ingressPortId, h.egressPortId, h.ingressTstamp, h.egressTstamp)
      left_inv := fun _ => rfl
      right_inv := fun _ => rfl }

/-- One line of the report: a node, or the sink at the end. The link delay is
a signed number. -/
structure TelemetricMeta where
  linkDelay : BitVec 64
  hopDelay : BitVec 64
  hopJitter : BitVec 64
  hopIndex : BitVec 8
  hopTimestamp : BitVec 64
deriving DecidableEq, Inhabited, Repr

structure TelemetricHdr where
  srcIp : List Char
  dstIp : List Char
  srcPort : BitVec 16
  dstPort : BitVec 16
  origTs : BitVec 64
  dstTs : BitVec 64
  protocol : BitVec 8
  seqNum : BitVec 64
  delay : BitVec 64
  sinkJitter : BitVec 64
  reordering : BitVec 64
  nodeMeta : List TelemetricMeta
deriving DecidableEq, Inhabited, Repr

@[ext] structure MetaData where
  seq : BitVec 64 := 0
  prevDstTs : BitVec 64 := 0
deriving DecidableEq, Inhabited, Repr

/-- The program options that the packet processing reads. -/
structure Options where
  hostValid : BitVec 8
  tstmp : BitVec 8
  smplRate : BitVec 32
  rawBuffer : BitVec 32
deriving DecidableEq, Repr

def maxNodes : Nat := 10
def pktBufSize : Nat := 65536

/-- What the language leaves undefined is a fault. -/
inductive Fault
  | divisionByZero
  | indexOutOfRange
  | bufferOverread
deriving DecidableEq, Repr

abbrev Timestamps (slots : Nat) := Fin slots → BitVec 64

/-- The globals of the collector. An absent entry of the flow map is one with
the default values, since a lookup creates it so. -/
structure Globals (slots : Nat) where
  flowMap : BitVec 64 → MetaData
  prevTimestamps : Timestamps slots
  pktCnt : BitVec 64
  pktDrop : BitVec 64

/-- The globals as they are declared, where an index from maxNodes on is a fault. -/
abbrev State := Globals maxNodes

/-- An index into prev_timestamps is a byte. -/
def reach : Nat := 256

/-- The globals with all words that an index can reach. The compiled loop does
not stop at the end of the table: it goes on in what lies behind it, which is
none of the other globals here. -/
abbrev Memory := Globals reach

def State.initial : State := ⟨fun _ => {}, fun _ => 0, 0, 0⟩

def Memory.initial : Memory := ⟨fun _ => {}, fun _ => 0, 0, 0⟩

def ntohs : BitVec 16 → BitVec 16 := be16.swap
def ntohl : BitVec 32 → BitVec 32 := be32.swap

def ntoh64 (value : BitVec 64) : BitVec 64 :=
  le64.decode [(value >>> 56).setWidth 8, (value >>> 48).setWidth 8, (value >>> 40).setWidth 8,
    (value >>> 32).setWidth 8, (value >>> 24).setWidth 8, (value >>> 16).setWidth 8,
    (value >>> 8).setWidth 8, (value >>> 0).setWidth 8]

/-- The four bytes of an address in memory, in dotted decimal. -/
def inetNtop (addr : BitVec 32) : List Char :=
  List.intercalate ['.'] ((le32.encode addr).map fun b => Nat.toDigits 10 b.toNat)

/-- Load a structure through a pointer, given as the bytes from there to the
end of the buffer. The result has the pointer behind it too. -/
def deref {α : Type} (c : Codec α) (p : List Byte) : Except Fault (α × List Byte) :=
  match c.read p with
  | none => .error .bufferOverread
  | some r => .ok r

@[simp] theorem ok_bind {α β : Type} (a : α) (f : α → Except Fault β) :
    ((Except.ok a : Except Fault α) >>= f) = f a := rfl

@[simp] theorem deref_encode {α : Type} (c : Codec α) (a : α) (rest : List Byte) :
    deref c (c.encode a ++ rest) = .ok (a, rest) := by
  simp [deref]

theorem ntoh64_eq_swap (value : BitVec 64) : ntoh64 value = be64.swap value := by
  have h : be64.encode value = [(value >>> 56).setWidth 8, (value >>> 48).setWidth 8,
      (value >>> 40).setWidth 8, (value >>> 32).setWidth 8, (value >>> 24).setWidth 8,
      (value >>> 16).setWidth 8, (value >>> 8).setWidth 8, (value >>> 0).setWidth 8] := by
    simp only [be64, be32, be16, glue, along, pair, joinBits, byte, Equiv.coe_fn_symm_mk,
      List.cons_append, List.nil_append, BitVec.setWidth_ushiftRight_eq_extractLsb]
    simp only [extract_extract, Nat.reduceAdd, Nat.reduceLeDiff]
  rw [ntoh64, ← h]
  rfl

end IntPlatform.Collector.Records
