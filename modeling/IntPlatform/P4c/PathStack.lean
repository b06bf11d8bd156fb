import IntPlatform.P4c.HopLimit

namespace IntPlatform.P4c.PathStack

open Library.Formats Library.HeaderValidity Library.Countdown
open HeaderTypes Parsing Ingress NodeFields Effects Accounting HopLimit

def address (dst : BitVec 48) (hops : List Hop) : BitVec 48 :=
  hops.foldl (fun dst hop => hop.program.mac.getD dst) dst

/-- What some nodes insert for a mask, the last one first. Each looks up its
ports with the destination address that the frame has there. -/
def stack (mask : BitVec 16) (dst : BitVec 48) : List Hop → List Byte
  | [] => []
  | hop :: hops => stack mask (hop.program.mac.getD dst) hops ++
      chosenBytes (nodeValues hop.tables hop.arrival dst) (hop.insertion mask).fields

def words (mask : BitVec 16) (hops : List Hop) : Nat :=
  (hops.map fun hop => (hop.insertion mask).words).sum

theorem address_concat (dst : BitVec 48) (hops : List Hop) (hop : Hop) :
    address dst (hops ++ [hop]) = hop.program.mac.getD (address dst hops) := by
  rw [address, List.foldl_append]
  rfl

theorem stack_concat (mask : BitVec 16) (dst : BitVec 48) (hops : List Hop) (hop : Hop) :
    stack mask dst (hops ++ [hop]) =
      chosenBytes (nodeValues hop.tables hop.arrival (address dst hops)) (hop.insertion mask).fields ++
        stack mask dst hops := by
  induction hops generalizing dst with
  | nil => exact (List.append_nil _).symm
  | cons first hops ih =>
      rw [List.cons_append, stack, ih, stack, List.append_assoc]
      rfl

theorem words_concat (mask : BitVec 16) (hops : List Hop) (hop : Hop) :
    words mask (hops ++ [hop]) = words mask hops + (hop.insertion mask).words := by
  rw [words, List.map_append, List.sum_append]
  rfl

theorem stack_length (mask : BitVec 16) (dst : BitVec 48) (hops : List Hop) :
    (stack mask dst hops).length =
      4 * (hops.map fun hop => chosenWords (hop.insertion mask).fields).sum := by
  induction hops generalizing dst with
  | nil => rfl
  | cons hop hops ih =>
      rw [stack, List.length_append, ih, chosenBytes_length, List.map_cons, List.sum_cons]
      omega

theorem stack_eq_nil_iff (mask : BitVec 16) (dst : BitVec 48) (hops : List Hop) :
    stack mask dst hops = [] ↔ ∀ hop ∈ hops, chosenWords (hop.insertion mask).fields = 0 := by
  rw [← List.length_eq_zero_iff, stack_length]
  induction hops with
  | nil => simp
  | cons hop hops ih =>
      rw [List.map_cons, List.sum_cons, List.forall_mem_cons, ← ih]
      omega

section Layers

variable (x y csum csum' : BitVec 16) (l4 : Transport)

theorem growUdp_growUdp : growUdp x (growUdp y l4) = growUdp (y + x) l4 := by
  cases l4 with
  | udp h => exact congrArg (fun len => Transport.udp { h with len := len }) (add_assoc _ _ _)
  | tcp h => rfl

theorem withCsum_growUdp : growUdp x (withCsum csum l4) = withCsum csum (growUdp x l4) := by
  cases l4 <;> rfl

theorem withCsum_withCsum : withCsum csum (withCsum csum' l4) = withCsum csum l4 := by
  cases l4 <;> rfl

end Layers

/-- The bytes by which the lengths have grown behind some nodes: the INT header
and four for each word. -/
def grownBytes (mask : BitVec 16) (hops : List Hop) : BitVec 16 := 20 + BitVec.ofNat 16 (words mask hops * 4)

theorem grownBytes_concat (mask : BitVec 16) (hops : List Hop) (hop : Hop) :
    grownBytes mask (hops ++ [hop]) =
      grownBytes mask hops + BitVec.ofNat 16 ((hop.insertion mask).words * 4) := by
  rw [grownBytes, grownBytes, words_concat, add_mul, BitVec.ofNat_add, add_assoc]

/-- The parts of a frame behind some nodes, of which only the first insert. -/
structure Stacked (c : Constants) (s : Segments) (n m : BitVec 16) (visited inserting : List Hop)
    (t : Segments) : Prop where
  tracks : Tracks c s n m visited.length t
  ethernet : t.ethernet = { s.ethernet with dstAddr := address s.ethernet.dstAddr visited }
  ipv4 : t.ipv4 = { s.ipv4 with
    dscp := 0x20
    totalLen := s.ipv4.totalLen + grownBytes m inserting
    hdrChecksum := t.ipv4.hdrChecksum }
  l4 : ∃ csum, t.l4 = withCsum csum (growUdp (grownBytes m inserting) s.l4)
  shim : t.int.map Prod.fst = some
    { sourceShim s.ipv4.dscp (read (s.int.map Prod.fst)) with
      len := 5 + BitVec.ofNat 8 (words m inserting) }
  payload : t.payload = stack m s.ethernet.dstAddr inserting ++ s.payload

section Steps

variable {c : Constants} {s : Segments} {n m : BitVec 16}

theorem source_stacked (hop : Hop) (hs : s.Accepted) (hsource : IsSource hop s n m)
    (hcon : hop.program.constants = c) :
    Stacked c s n m [hop] ([hop].take (distance (exhausted c) n)) (hop.effect s) := by
  have htracks := source_tracks hop hs hsource hcon
  by_cases hx : n = exhausted hop.program.constants
  · have hnone : [hop].take (distance (exhausted c) n) = [] := by
      rw [← hcon, distance_eq_zero.mpr hx, List.take_zero]
    rw [hnone]
    rw [effect_sourced_exceeded hop s n m hsource.configures hx] at htracks ⊢
    exact ⟨htracks, rfl, rfl, ⟨_, rfl⟩, rfl, rfl⟩
  · have hd : distance (exhausted c) n ≠ 0 := by
      rw [← hcon]
      exact fun h0 => hx (distance_eq_zero.mp h0)
    have hone : [hop].take (distance (exhausted c) n) = [hop] := by
      apply List.take_of_length_le
      rw [List.length_singleton]
      omega
    rw [hone]
    rw [effect_sourced hop s n m hsource.configures hx] at htracks ⊢
    have hwords : words m [hop] = (hop.insertion m).words := by simp [words]
    refine ⟨htracks, rfl, ?_, ⟨hop.csum s, ?_⟩, ?_, rfl⟩
    · rw [grownBytes, hwords, ← add_assoc]
    · rw [growUdp_growUdp, grownBytes, hwords]
    · rw [hwords]
      rfl

theorem transit_stacked (hop : Hop) (hsrc : hop.program.source = false) (hcon : hop.program.constants = c)
    (visited : List Hop) (t : Segments)
    (ht : Stacked c s n m visited (visited.take (distance (exhausted c) n)) t) :
    Stacked c s n m (visited ++ [hop]) ((visited ++ [hop]).take (distance (exhausted c) n))
      (hop.effect t) := by
  have htracks : Tracks c s n m (visited.length + 1) (hop.effect t) :=
    transit_tracks { hop with program := { hop.program with sink := false } } ⟨hsrc, rfl⟩ hcon _ t ht.tracks
  obtain ⟨shim, h, hint, hhop, -, hmask⟩ := ht.tracks.int
  have hd := iterate_eq_stop (exhausted c) n visited.length
  rw [← hhop] at hd
  have hlen : visited.length + 1 = (visited ++ [hop]).length := by
    rw [List.length_append, List.length_singleton]
  have hdst : t.ethernet.dstAddr = address s.ethernet.dstAddr visited := by rw [ht.ethernet]
  have hshim := ht.shim
  rw [hint, Option.map_some, Option.some.injEq] at hshim
  dsimp only at hshim
  obtain ⟨csum, hl4⟩ := ht.l4
  rw [hlen] at htracks
  by_cases hx : h.hopInfo = exhausted hop.program.constants
  · have hk := hd.mp (hcon ▸ hx)
    have hsame : (visited ++ [hop]).take (distance (exhausted c) n) =
        visited.take (distance (exhausted c) n) := List.take_append_of_le_length hk
    rw [hsame]
    rw [effect_exceeded hop t shim h hsrc hint hx] at htracks ⊢
    refine ⟨htracks, ?_, ?_, ⟨hop.csum t, ?_⟩, ?_, ht.payload⟩
    · rw [address_concat, ht.ethernet]
    · rw [ht.ipv4]
    · rw [hl4, withCsum_withCsum]
    · exact congrArg some hshim
  · have hk : ¬distance (exhausted c) n ≤ visited.length := fun hle => hx (hcon ▸ hd.mpr hle)
    have hbefore : visited.take (distance (exhausted c) n) = visited :=
      List.take_of_length_le (by omega)
    have hafter : (visited ++ [hop]).take (distance (exhausted c) n) = visited ++ [hop] :=
      List.take_of_length_le (by omega)
    rw [hbefore] at ht hshim hl4
    rw [hafter]
    rw [effect_inserted hop t shim h hsrc hint hx] at htracks ⊢
    refine ⟨htracks, ?_, ?_, ⟨hop.csum t, ?_⟩, ?_, ?_⟩
    · rw [address_concat, ht.ethernet]
    · rw [grownBytes_concat, ← add_assoc, ht.ipv4, hmask]
    · rw [grownBytes_concat, hl4, withCsum_growUdp, withCsum_withCsum, growUdp_growUdp, hmask]
    · rw [words_concat, hshim, hmask, BitVec.ofNat_add, ← add_assoc]
      rfl
    · rw [stack_concat, List.append_assoc, ← ht.payload, ← hdst, hmask]
      rfl

end Steps

section Runs

variable {c : Constants} {n m : BitVec 16}

theorem runPath_stacked {s : Segments} (transits : List Hop) (ht : ∀ hop ∈ transits, IsTransit hop)
    (hcon : ∀ hop ∈ transits, hop.program.constants = c) (visited : List Hop) (t : Segments)
    (h : Stacked c s n m visited (visited.take (distance (exhausted c) n)) t) :
    ∃ t', runPath transits t.frame = some t'.frame ∧
      Stacked c s n m (visited ++ transits) ((visited ++ transits).take (distance (exhausted c) n)) t' := by
  induction transits generalizing visited t with
  | nil =>
      rw [List.append_nil]
      exact ⟨t, rfl, h⟩
  | cons hop transits ih =>
      have hhop := ht hop List.mem_cons_self
      have hstep := transit_stacked hop hhop.source (hcon hop List.mem_cons_self) visited t h
      obtain ⟨t', hr, ht'⟩ := ih (fun g hg => ht g (List.mem_cons_of_mem hop hg))
        (fun g hg => hcon g (List.mem_cons_of_mem hop hg)) (visited ++ [hop]) (hop.effect t) hstep
      rw [List.append_assoc, List.singleton_append] at ht'
      refine ⟨t', ?_, ht'⟩
      rw [runPath, forward_frame hop t h.tracks.accepted hhop.sink, Option.bind_some, hr]

/-- The frame behind a path: the metadata of the first nodes in front of the
payload, the last one first, and the original headers around it with the
lengths grown by what the nodes count. -/
theorem path_stacks (d : Datagram) (path : IntPath c d.toSegments n m) :
    ∃ t, runPath path.hops d.frame = some t.frame ∧
      Stacked c d.toSegments n m path.hops (path.hops.take (distance (exhausted c) n)) t := by
  have hsource := source_stacked path.source d.accepted path.isSource (path.constants _ List.mem_cons_self)
  obtain ⟨t, hr, ht⟩ := runPath_stacked path.transits path.isTransit
    (fun hop hm => path.constants hop (List.mem_cons_of_mem _ hm)) [path.source] _ hsource
  refine ⟨t, ?_, ht⟩
  rw [IntPath.hops, runPath, forward_frame path.source d.toSegments d.accepted path.isSource.sink,
    Option.bind_some, hr]

end Runs

structure Loaded (hop : Hop) : Prop where
  tbIntInst0003 : hop.tables.tbIntInst0003 = table003
  tbIntInst0407 : hop.tables.tbIntInst0407 = table407

theorem insertion_wanted (hop : Hop) (hop_loaded : Loaded hop) (mask : BitVec 16)
    (hmask : mask &&& 0x00f0#16 ≠ 0x0030#16) :
    hop.insertion mask = ⟨wanted mask, chosenWords (wanted mask)⟩ := by
  obtain ⟨hfields, hwords⟩ := actions_right _ (mask.extractLsb' 0 4)
    (fun h3 => hmask ((high_nibble_three _).mpr h3))
  rw [Hop.insertion, insertion_loaded hop.tables hop_loaded.tbIntInst0003 hop_loaded.tbIntInst0407,
    hfields, hwords, wanted_eq]

theorem counted (mask : BitVec 16) (hmask : mask &&& 0x00f0#16 ≠ 0x0030#16) (hops : List Hop)
    (hloaded : ∀ hop ∈ hops, Loaded hop) (dst : BitVec 48) :
    words mask hops = hops.length * chosenWords (wanted mask) ∧
      (stack mask dst hops).length = hops.length * (4 * chosenWords (wanted mask)) := by
  rw [stack_length, words]
  induction hops with
  | nil => exact ⟨(Nat.zero_mul _).symm, (Nat.zero_mul _).symm⟩
  | cons hop hops ih =>
      obtain ⟨hwords, hlength⟩ := ih fun g hg => hloaded g (List.mem_cons_of_mem hop hg)
      have hi := insertion_wanted hop (hloaded hop List.mem_cons_self) mask hmask
      rw [List.map_cons, List.sum_cons, List.map_cons, List.sum_cons, hwords, hi, List.length_cons]
      constructor
      · rw [Nat.add_mul, Nat.one_mul, Nat.add_comm]
      · rw [Nat.mul_add, hlength, Nat.add_mul, Nat.one_mul, Nat.add_comm]

section Accounts

variable {c : Constants} {n m : BitVec 16}

theorem unmarked_length (s : Segments) (hint : s.int = none) :
    s.frame.length = 34 + s.l4.encode.length + s.payload.length := by
  have he : (ethernetCodec.encode s.ethernet).length = 14 := ethernetCodec.encode_length _
  have hi : (ipv4Codec.encode s.ipv4).length = 20 := ipv4Codec.encode_length _
  have hb : (intBytes s.int).length = 0 := by
    rw [hint]
    rfl
  simp only [Segments.frame, List.length_append, he, hi, hb]
  omega

/-- Behind a path of nodes with the shipped tables the lengths are those of the
frame again, for all masks but those whose upper half byte is 3. -/
theorem path_accounts (d : Datagram) (path : IntPath c d.toSegments n m) (hnone : d.int = none)
    (hloaded : ∀ hop ∈ path.hops, Loaded hop) (hmask : m &&& 0x00f0#16 ≠ 0x0030#16) :
    let inserting := min path.hops.length (distance (exhausted c) n)
    ∃ out, runPath path.hops d.frame = some out ∧
      out.length = d.frame.length + 20 + inserting * (4 * chosenWords (wanted m)) ∧
      totalLen out = totalLen d.frame + BitVec.ofNat 16 (out.length - d.frame.length) ∧
      (d.l4.udp?.isSome → udpLen out = udpLen d.frame + BitVec.ofNat 16 (out.length - d.frame.length)) ∧
      4 * shimLen d.toSegments out % 1024 = (out.length - d.frame.length) % 1024 := by
  intro inserting
  obtain ⟨t, hrun, ht⟩ := path_stacks d path
  obtain ⟨shim, h, hint, -⟩ := ht.tracks.int
  obtain ⟨csum, hl4⟩ := ht.l4
  have hshim := ht.shim
  rw [hint, Option.map_some, Option.some.injEq] at hshim
  dsimp only at hshim
  have hhops : (path.hops.take (distance (exhausted c) n)).length = inserting := by
    rw [List.length_take, Nat.min_comm]
  obtain ⟨hwords, hstack⟩ := counted m hmask (path.hops.take (distance (exhausted c) n))
    (fun hop hm => hloaded hop (List.mem_of_mem_take hm)) d.ethernet.dstAddr
  rw [hhops] at hwords hstack
  have hend : intEnd t = 34 + d.l4.encode.length + 20 := by rw [intEnd, ht.tracks.l4]
  have hlen : t.frame.length = d.frame.length + 20 + inserting * (4 * chosenWords (wanted m)) := by
    rw [frame_length t shim h hint, unmarked_length d.toSegments hnone, ht.payload, List.length_append,
      hstack, hend]
    omega
  have hgrown : grownBytes m (path.hops.take (distance (exhausted c) n)) =
      BitVec.ofNat 16 (t.frame.length - d.frame.length) := by
    have hsub : t.frame.length - d.frame.length = 20 + words m (path.hops.take (distance (exhausted c) n)) * 4 := by
      rw [hwords, hlen, ← Nat.mul_assoc, Nat.mul_right_comm, Nat.mul_comm _ 4]
      omega
    rw [grownBytes, hsub, BitVec.ofNat_add]
    rfl
  refine ⟨t.frame, hrun, hlen, ?_, ?_, ?_⟩
  · rw [totalLen_frame, totalLen_frame, ht.ipv4, hgrown]
  · intro hu
    cases hd : d.l4 with
    | udp u =>
        rw [hd] at hl4
        rw [udpLen_frame _ u hd, udpLen_frame _ _ hl4, ← hgrown]
    | tcp u => simp [hd, Transport.udp?] at hu
  · have hs : shimLen d.toSegments t.frame = shimLen t t.frame := by rw [shimLen, shimLen, ht.tracks.l4]
    rw [hs, shimLen_frame t shim h hint, hshim, hwords, hlen]
    have hfive : (5 : BitVec 8).toNat = 5 := rfl
    rw [Nat.mul_left_comm inserting, BitVec.toNat_add, BitVec.toNat_ofNat, hfive]
    omega

end Accounts

theorem path_accounts_sample :
    ∃ out, runPath (samplePath 6 4).hops sampleDatagram.frame = some out ∧
      out.length = sampleDatagram.frame.length + 20 + 2 * 24 := by
  have hloaded : ∀ hop ∈ (samplePath 6 4).hops, Loaded hop := by
    intro hop hm
    rcases List.mem_cons.mp hm with rfl | hm
    · exact ⟨rfl, rfl⟩
    · rw [List.mem_singleton.mp hm]
      exact ⟨rfl, rfl⟩
  obtain ⟨out, hrun, hlen, -⟩ :=
    path_accounts sampleDatagram (samplePath 6 4) rfl hloaded (by decide)
  exact ⟨out, hrun, hlen⟩

end IntPlatform.P4c.PathStack
