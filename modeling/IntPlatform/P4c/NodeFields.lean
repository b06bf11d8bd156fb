import IntPlatform.P4c.Deparser

namespace IntPlatform.P4c.NodeFields

open Library.Formats Library.HeaderValidity HeaderTypes Ingress Deparser

structure NodeValues where
  switchId : BitVec 32
  ingressPort : BitVec 16
  egressPort : BitVec 16
  ingressTstamp : BitVec 64
deriving DecidableEq, Repr

def values (s : State) : NodeValues :=
  ⟨s.metadata.switchId, s.metadata.ingressPort, s.egressPort, s.metadata.ingressTstamp⟩

def allFields : List Field :=
  [.switchId, .portIds, .hopLatency, .qOccupancy, .ingressTstamp, .egressTstamp, .level2PortIds,
    .egressPortTxUtil]

def bytes (v : NodeValues) : Field → List Byte
  | .switchId => be32.encode v.switchId
  | .portIds => be16.encode v.ingressPort ++ be16.encode v.egressPort
  | .hopLatency => be32.encode 0
  | .qOccupancy => byte.encode 0 ++ be24.encode 0
  | .ingressTstamp => be64.encode v.ingressTstamp
  | .egressTstamp => be64.encode 0
  | .level2PortIds => be16.encode 0 ++ be16.encode 0
  | .egressPortTxUtil => be32.encode 0

def fieldWords : Field → Nat
  | .ingressTstamp | .egressTstamp => 2
  | _ => 1

theorem mem_allFields (f : Field) : f ∈ allFields := by cases f <;> decide

theorem bytes_length (v : NodeValues) (f : Field) : (bytes v f).length = 4 * fieldWords f := by
  cases f <;> rfl

def chosenBytes (v : NodeValues) (c : Field → Bool) : List Byte := (allFields.filter c).flatMap (bytes v)

def chosenWords (c : Field → Bool) : Nat := ((allFields.filter c).map fieldWords).sum

def chosen (v : NodeValues) (c : Field → Bool) : NodeMetadata where
  intSwitchId := if c .switchId then some ⟨v.switchId⟩ else none
  intPortIds := if c .portIds then some ⟨v.ingressPort, v.egressPort⟩ else none
  intHopLatency := if c .hopLatency then some ⟨0⟩ else none
  intQOccupancy := if c .qOccupancy then some ⟨0, 0⟩ else none
  intIngressTstamp := if c .ingressTstamp then some ⟨v.ingressTstamp⟩ else none
  intEgressTstamp := if c .egressTstamp then some ⟨0⟩ else none
  intLevel2PortIds := if c .level2PortIds then some ⟨0, 0⟩ else none
  intEgressPortTxUtil := if c .egressPortTxUtil then some ⟨0⟩ else none

theorem length_flatMap_bytes (v : NodeValues) (fs : List Field) :
    (fs.flatMap (bytes v)).length = 4 * (fs.map fieldWords).sum := by
  induction fs with
  | nil => rfl
  | cons f fs ih =>
      rw [List.flatMap_cons, List.length_append, bytes_length, ih, List.map_cons, List.sum_cons, mul_add]

theorem chosenBytes_length (v : NodeValues) (c : Field → Bool) :
    (chosenBytes v c).length = 4 * chosenWords c := length_flatMap_bytes v _

theorem emit_ite {α : Type} (c : Codec α) (b : Bool) (a : α) :
    emit c (if b then some a else none) = if b then c.encode a else [] := by
  cases b <;> rfl

theorem flatMap_filter_ite {α β : Type} (c : α → Bool) (g : α → List β) (l : List α) :
    (l.filter c).flatMap g = l.flatMap fun a => if c a then g a else [] := by
  induction l with
  | nil => rfl
  | cons a l ih =>
      rw [List.flatMap_cons, ← ih, List.filter_cons]
      cases c a <;> rfl

theorem emitNode_chosen (v : NodeValues) (c : Field → Bool) :
    emitNode (chosen v c) = chosenBytes v c := by
  rw [chosenBytes, flatMap_filter_ite]
  simp only [emitNode, chosen, emit_ite, allFields, List.flatMap_cons, List.flatMap_nil,
    List.append_nil, List.append_assoc]
  rfl

theorem intSetHeader_chosen (s : State) (c : Field → Bool) (h : s.hdr.node = chosen (values s) c)
    (f : Field) :
    intSetHeader s f = onNode s fun _ => chosen (values s) fun g => c g || decide (g = f) := by
  have hs (n : NodeMetadata) (hn : n = chosen (values s) fun g => c g || decide (g = f)) :
      onNode s (fun _ => n) = onNode s fun _ => chosen (values s) fun g => c g || decide (g = f) := by
    rw [hn]
  cases f <;> refine hs _ ?_ <;> simp [h, chosen, values, setValid]

theorem foldl_intSetHeader (fs : List Field) (s : State) (c : Field → Bool)
    (h : s.hdr.node = chosen (values s) c) :
    fs.foldl intSetHeader s = onNode s fun _ => chosen (values s) fun g => c g || fs.contains g := by
  induction fs generalizing s c with
  | nil =>
      simp only [List.foldl_nil, List.contains_nil, Bool.or_false, ← h]
      rfl
  | cons f fs ih =>
      have hc : (fun g => c g || decide (g = f) || fs.contains g) =
          fun g => c g || (f :: fs).contains g := by
        funext g
        rw [List.contains_cons, Bool.or_assoc]
        rfl
      rw [List.foldl_cons, intSetHeader_chosen s c h, ih _ (fun g => c g || decide (g = f)) rfl, ← hc]
      rfl

theorem run_chosen (a : InstAction) (s : State) (c : Field → Bool)
    (h : s.hdr.node = chosen (values s) c) :
    a.run s = { s with
      hdr := { s.hdr with node := chosen (values s) fun g => c g || a.fields.contains g }
      metadata := add a.words s.metadata } := by
  rw [InstAction.run, foldl_intSetHeader a.fields s c h]
  rfl

def selected (t : Library.MatchAction.Table (BitVec 16) InstAction) (key : BitVec 16) : InstAction :=
  (t.select key).getD ⟨[], 0⟩

theorem apply_selected (t : Library.MatchAction.Table (BitVec 16) InstAction) (key : BitVec 16)
    (s : State) : t.apply InstAction.run key s = (selected t key).run s := by
  rw [selected, Library.MatchAction.Table.apply]
  cases t.select key with
  | none => simp [InstAction.run, add]
  | some a => rfl

end IntPlatform.P4c.NodeFields
