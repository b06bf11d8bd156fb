import IntPlatform.Library.Countdown
import IntPlatform.P4c.Accounting

namespace IntPlatform.P4c.HopLimit

open Library.Formats Library.HeaderValidity Library.Countdown
open HeaderTypes Parsing Ingress NodeFields Effects Accounting

def runPath : List Hop → List Byte → Option (List Byte)
  | [], frame => some frame
  | hop :: hops, frame => (hop.forward frame).bind (runPath hops)

/-- A path that runs one generated program: its source configures INT for the
flow of s with the parameters n and m, and transit nodes follow. -/
structure IntPath (c : Constants) (s : Segments) (n m : BitVec 16) where
  source : Hop
  transits : List Hop
  isSource : IsSource source s n m
  isTransit : ∀ hop ∈ transits, IsTransit hop
  constants : ∀ hop ∈ source :: transits, hop.program.constants = c

namespace IntPath

variable {c : Constants} {s : Segments} {n m : BitVec 16}

def hops (path : IntPath c s n m) : List Hop := path.source :: path.transits

end IntPath

def cELow (s : Segments) (frame : List Byte) : Byte := frame.getD (34 + s.l4.encode.length + 9) 0

def hopInfoHigh (s : Segments) (frame : List Byte) : Byte := frame.getD (34 + s.l4.encode.length + 14) 0

def hopInfoLow (s : Segments) (frame : List Byte) : Byte := frame.getD (34 + s.l4.encode.length + 15) 0

/-- What stands behind the INT header after the nodes of a path. The source
finds the payload there. -/
def behind (s : Segments) (visited : List Hop) (frame : List Byte) : List Byte :=
  if visited.isEmpty then s.payload else frame.drop (intEnd s)

def Inserts (hop : Hop) (m : BitVec 16) (before after : List Byte) : Prop :=
  ∃ v, after = chosenBytes v (hop.insertion m).fields ++ before

/-- The hop limit N of the source is kept along a path: the first N nodes
insert metadata and no others, hop_info leaves with what is left of N under an
unchanged L, and the exceeded byte tells whether there were more nodes. -/
structure LimitKept (s : Segments) (m : BitVec 16) (L N : BitVec 8) (path : List Hop) : Prop where
  inserts : ∀ visited hop rest frame out, path = visited ++ hop :: rest →
    runPath visited s.frame = some frame → hop.forward frame = some out →
    if visited.length < N.toNat then Inserts hop m (behind s visited frame) (out.drop (intEnd s))
    else out.drop (intEnd s) = behind s visited frame
  leaves : ∃ out, runPath path s.frame = some out ∧ hopInfoHigh s out = L ∧
    (hopInfoLow s out).toNat = N.toNat - min path.length N.toNat ∧
    (cELow s out = 1 ↔ N.toNat < path.length)

structure Tracks (c : Constants) (s : Segments) (n m : BitVec 16) (k : Nat) (t : Segments) : Prop where
  accepted : t.Accepted
  l4 : t.l4.encode.length = s.l4.encode.length
  int : ∃ shim h, t.int = some (shim, h) ∧ h.hopInfo = (step (exhausted c))^[k] n ∧
    h.cE = (if distance (exhausted c) n < k then 1 else 0) ∧ h.instructionMask = m

section Steps

variable {c : Constants} {s : Segments} {n m : BitVec 16}

theorem source_tracks (hop : Hop) (hs : s.Accepted) (hsource : IsSource hop s n m)
    (hcon : hop.program.constants = c) : Tracks c s n m 1 (hop.effect s) := by
  have hm : Marked 0x20 := by decide
  by_cases hx : n = exhausted hop.program.constants
  · rw [effect_sourced_exceeded hop s n m hsource.configures hx]
    refine ⟨⟨hs.etherType, ?_, iff_of_true hm rfl⟩, ?_, _, _, rfl, ?_, ?_, rfl⟩
    · rw [protocol_withCsum, protocol_growUdp]
      exact hs.protocol
    · rw [length_withCsum, length_growUdp]
    · rw [hcon] at hx
      exact (if_pos hx).symm
    · rw [hcon] at hx
      rw [distance_eq_zero.mpr hx]
      rfl
  · rw [effect_sourced hop s n m hsource.configures hx]
    refine ⟨⟨hs.etherType, ?_, iff_of_true hm rfl⟩, ?_, _, _, rfl, ?_, ?_, rfl⟩
    · rw [protocol_withCsum, protocol_growUdp, protocol_growUdp]
      exact hs.protocol
    · rw [length_withCsum, length_growUdp, length_growUdp]
    · rw [hcon] at hx
      exact (if_neg hx).symm
    · rw [hcon] at hx
      have hd : distance (exhausted c) n ≠ 0 := fun h0 => hx (distance_eq_zero.mp h0)
      rw [if_neg (by omega)]
      rfl

theorem transit_tracks (hop : Hop) (htransit : IsTransit hop) (hcon : hop.program.constants = c)
    (k : Nat) (t : Segments) (ht : Tracks c s n m k t) : Tracks c s n m (k + 1) (hop.effect t) := by
  obtain ⟨shim, h, hint, hhop, hcE, hmask⟩ := ht.int
  have hm : Marked t.ipv4.dscp := ht.accepted.marked.mpr (by rw [hint]; rfl)
  have hd := iterate_eq_stop (exhausted c) n k
  rw [← hhop] at hd
  by_cases hx : h.hopInfo = exhausted hop.program.constants
  · rw [effect_exceeded hop t shim h htransit.source hint hx]
    rw [hcon] at hx
    refine ⟨⟨ht.accepted.etherType, ?_, iff_of_true hm rfl⟩, ?_, _, _, rfl, ?_, ?_, ?_⟩
    · rw [protocol_withCsum]
      exact ht.accepted.protocol
    · rw [length_withCsum, ht.l4]
    · rw [exceed_eq, Function.iterate_succ_apply', ← hhop, step, if_pos hx]
    · have hk := hd.mp hx
      rw [if_pos (show distance (exhausted c) n < k + 1 by omega)]
      apply exceed_cE
      rw [hcE]
      split
      · exact .inr rfl
      · exact .inl rfl
    · rw [exceed_eq, hmask]
  · rw [effect_inserted hop t shim h htransit.source hint hx]
    rw [hcon] at hx
    refine ⟨⟨ht.accepted.etherType, ?_, iff_of_true hm rfl⟩, ?_, _, _, rfl, ?_, ?_, hmask⟩
    · rw [protocol_withCsum, protocol_growUdp]
      exact ht.accepted.protocol
    · rw [length_withCsum, length_growUdp, ht.l4]
    · rw [Function.iterate_succ_apply', ← hhop, step, if_neg hx]
    · have hk : ¬ distance (exhausted c) n ≤ k := fun hle => hx (hd.mpr hle)
      rw [if_neg (by omega)]
      rw [if_neg (by omega)] at hcE
      exact hcE

theorem source_inserts (hop : Hop) (hsource : IsSource hop s n m) (hcon : hop.program.constants = c) :
    if 0 < distance (exhausted c) n then Inserts hop m s.payload (hop.effect s).payload
    else (hop.effect s).payload = s.payload := by
  by_cases hx : n = exhausted hop.program.constants
  · rw [if_neg (by rw [← hcon, distance_eq_zero.mpr hx]; omega),
      effect_sourced_exceeded hop s n m hsource.configures hx]
  · have hd : distance (exhausted c) n ≠ 0 := by
      rw [← hcon]
      exact fun h0 => hx (distance_eq_zero.mp h0)
    rw [if_pos (by omega), effect_sourced hop s n m hsource.configures hx]
    exact ⟨_, rfl⟩

theorem transit_inserts (hop : Hop) (htransit : IsTransit hop) (hcon : hop.program.constants = c)
    (k : Nat) (t : Segments) (ht : Tracks c s n m k t) :
    if k < distance (exhausted c) n then Inserts hop m t.payload (hop.effect t).payload
    else (hop.effect t).payload = t.payload := by
  obtain ⟨shim, h, hint, hhop, -, hmask⟩ := ht.int
  have hd := iterate_eq_stop (exhausted c) n k
  rw [← hhop, ← hcon] at hd
  by_cases hx : h.hopInfo = exhausted hop.program.constants
  · have hk := hd.mp hx
    rw [hcon] at hk
    rw [if_neg (by omega), effect_exceeded hop t shim h htransit.source hint hx]
  · have hk : ¬ distance (exhausted c) n ≤ k := by
      rw [← hcon]
      exact fun hle => hx (hd.mpr hle)
    rw [if_pos (by omega), effect_inserted hop t shim h htransit.source hint hx, ← hmask]
    exact ⟨_, rfl⟩

end Steps

section Frames

variable {c : Constants} {s : Segments} {n m : BitVec 16} {k : Nat} {t : Segments}

theorem tracks_behind (ht : Tracks c s n m k t) : t.frame.drop (intEnd s) = t.payload := by
  obtain ⟨shim, h, hint, -⟩ := ht.int
  have hend : intEnd s = intEnd t := by rw [intEnd, intEnd, ht.l4]
  rw [hend, drop_intEnd t shim h hint]

theorem tracks_bytes (ht : Tracks c s n m k t) :
    hopInfoHigh s t.frame = ((step (exhausted c))^[k] n).extractLsb' 8 8 ∧
      hopInfoLow s t.frame = ((step (exhausted c))^[k] n).extractLsb' 0 8 ∧
      (cELow s t.frame = 1 ↔ distance (exhausted c) n < k) := by
  obtain ⟨shim, h, hint, hhop, hcE, -⟩ := ht.int
  have hb : cELow t t.frame = h.cE.extractLsb' 0 8 ∧ hopInfoHigh t t.frame = h.hopInfo.extractLsb' 8 8 ∧
      hopInfoLow t t.frame = h.hopInfo.extractLsb' 0 8 := by
    obtain ⟨ethernet, ipv4, l4, int, payload⟩ := t
    dsimp only at hint
    subst hint
    cases l4 <;> exact ⟨rfl, rfl, rfl⟩
  rw [hhop, hcE] at hb
  rw [hopInfoHigh, hopInfoLow, cELow, ← ht.l4]
  refine ⟨hb.2.1, hb.2.2, ?_⟩
  change cELow t t.frame = 1 ↔ _
  rw [hb.1]
  by_cases hk : distance (exhausted c) n < k
  · rw [if_pos hk]
    exact iff_of_true (by decide) hk
  · rw [if_neg hk]
    exact iff_of_false (by decide) hk

end Frames

section Counts

variable (L N : BitVec 8) (stop : BitVec 16) (k : Nat)

theorem toNat_count : (L ++ N : BitVec 16).toNat = L.toNat * 256 + N.toNat := by
  rw [BitVec.toNat_append, Nat.shiftLeft_eq, ← Nat.shiftLeft_eq, Nat.shiftLeft_add_eq_or_of_lt N.isLt,
    Nat.shiftLeft_eq]

/-- The local constant stops the count at the right place if it has the upper
byte of the source, and on a short path it need not stop it. -/
theorem min_distance_iff :
    min k (distance stop (L ++ N)) = min k N.toNat ↔
      stop = L ++ 0#8 ∨ k ≤ min N.toNat (distance stop (L ++ N)) := by
  have hd : distance stop (L ++ N) = N.toNat ↔ stop = L ++ 0#8 := by
    have hn := toNat_count L N
    have h0 := toNat_count L 0#8
    have hL := L.isLt
    have hN := N.isLt
    have hs := stop.isLt
    rw [BitVec.toNat_ofNat] at h0
    rw [distance, BitVec.toNat_sub, hn, ← BitVec.toNat_inj, h0]
    omega
  rw [← hd]
  omega

theorem count_bytes_iff :
    (((L ++ N : BitVec 16) - BitVec.ofNat 16 (min k (distance stop (L ++ N)))).extractLsb' 8 8 = L ∧
      (((L ++ N : BitVec 16) - BitVec.ofNat 16 (min k (distance stop (L ++ N)))).extractLsb' 0 8).toNat =
        N.toNat - min k N.toNat) ↔ min k (distance stop (L ++ N)) = min k N.toNat := by
  have hn := toNat_count L N
  have hL := L.isLt
  have hN := N.isLt
  have hd : distance stop (L ++ N) < 65536 := (L ++ N - stop : BitVec 16).isLt
  rw [← BitVec.toNat_inj]
  simp only [BitVec.extractLsb'_toNat, BitVec.toNat_sub, BitVec.toNat_ofNat, hn, Nat.shiftRight_eq_div_pow]
  omega

end Counts

section Runs

variable {c : Constants} {n m : BitVec 16} (d : Datagram) (path : IntPath c d.toSegments n m)

theorem runPath_tracks (transits : List Hop) (ht : ∀ hop ∈ transits, IsTransit hop)
    (hcon : ∀ hop ∈ transits, hop.program.constants = c) (s : Segments) (k : Nat) (t : Segments)
    (h : Tracks c s n m k t) :
    ∃ t', runPath transits t.frame = some t'.frame ∧ Tracks c s n m (k + transits.length) t' := by
  induction transits generalizing k t with
  | nil => exact ⟨t, rfl, h⟩
  | cons hop transits ih =>
      have hhop := ht hop List.mem_cons_self
      have hstep := transit_tracks hop hhop (hcon hop List.mem_cons_self) k t h
      obtain ⟨t', hr, ht'⟩ := ih (fun g hg => ht g (List.mem_cons_of_mem hop hg))
        (fun g hg => hcon g (List.mem_cons_of_mem hop hg)) (k + 1) (hop.effect t) hstep
      refine ⟨t', ?_, ?_⟩
      · rw [runPath, forward_frame hop t h.accepted hhop.sink, Option.bind_some, hr]
      · rw [List.length_cons, Nat.add_comm transits.length, ← Nat.add_assoc]
        exact ht'

theorem runPath_source (transits : List Hop) (hsub : ∀ hop ∈ transits, hop ∈ path.transits) :
    ∃ t, runPath (path.source :: transits) d.frame = some t.frame ∧
      Tracks c d.toSegments n m (path.source :: transits).length t := by
  have hs := source_tracks path.source d.accepted path.isSource (path.constants _ List.mem_cons_self)
  obtain ⟨t, hr, ht⟩ := runPath_tracks transits (fun hop hm => path.isTransit hop (hsub hop hm))
    (fun hop hm => path.constants hop (List.mem_cons_of_mem _ (hsub hop hm))) d.toSegments 1 _ hs
  refine ⟨t, ?_, ?_⟩
  · rw [runPath, forward_frame path.source d.toSegments d.accepted path.isSource.sink, Option.bind_some,
      hr]
  · rw [List.length_cons, Nat.add_comm]
    exact ht

theorem visited_inserts (visited rest : List Hop) (hop : Hop) (frame out : List Byte)
    (hsplit : path.hops = visited ++ hop :: rest) (hrun : runPath visited d.frame = some frame)
    (hout : hop.forward frame = some out) :
    if visited.length < distance (exhausted c) n then
      Inserts hop m (behind d.toSegments visited frame) (out.drop (intEnd d.toSegments))
    else out.drop (intEnd d.toSegments) = behind d.toSegments visited frame := by
  cases visited with
  | nil =>
      obtain ⟨hfirst, -⟩ := List.cons.inj hsplit
      cases hrun
      have hcon := path.constants _ List.mem_cons_self
      have ht := source_tracks path.source d.accepted path.isSource hcon
      rw [← hfirst, forward_frame _ d.toSegments d.accepted path.isSource.sink] at hout
      rw [← Option.some.inj hout, tracks_behind ht, ← hfirst]
      exact source_inserts path.source path.isSource hcon
  | cons first visited =>
      obtain ⟨hfirst, hrest⟩ := List.cons.inj hsplit
      have hsub : ∀ g ∈ visited, g ∈ path.transits := by
        intro g hg
        rw [hrest]
        exact List.mem_append_left _ hg
      have hmem : hop ∈ path.transits := by
        rw [hrest]
        exact List.mem_append_right _ List.mem_cons_self
      obtain ⟨t, hr, ht⟩ := runPath_source d path visited hsub
      rw [← hfirst] at hrun
      cases hrun.symm.trans hr
      have hhop := path.isTransit hop hmem
      have hcon := path.constants hop (List.mem_cons_of_mem _ hmem)
      have hstep := transit_tracks hop hhop hcon _ t ht
      rw [forward_frame hop t ht.accepted hhop.sink] at hout
      rw [← Option.some.inj hout, tracks_behind hstep, behind, List.isEmpty_cons]
      simp only [Bool.false_eq_true, ↓reduceIte, tracks_behind ht]
      exact transit_inserts hop hhop hcon _ t ht

theorem limitKept_of_min (L N : BitVec 8) (path : IntPath c d.toSegments (L ++ N) m)
    (hmin : min path.hops.length (distance (exhausted c) (L ++ N)) = min path.hops.length N.toNat) :
    LimitKept d.toSegments m L N path.hops where
  inserts := by
    intro visited hop rest frame out hsplit hrun hout
    have hl : visited.length < path.hops.length := by
      rw [hsplit, List.length_append, List.length_cons]
      omega
    have hi := visited_inserts d path visited rest hop frame out hsplit hrun hout
    have hiff : visited.length < distance (exhausted c) (L ++ N) ↔ visited.length < N.toNat := by omega
    rwa [if_congr hiff rfl rfl] at hi
  leaves := by
    obtain ⟨t, hr, ht⟩ := runPath_source d path path.transits (fun _ hm => hm)
    obtain ⟨hhigh, hlow, hcE⟩ := tracks_bytes ht
    rw [iterate_eq] at hhigh hlow
    obtain ⟨hL, hN⟩ := (count_bytes_iff L N (exhausted c) path.hops.length).mpr hmin
    refine ⟨t.frame, hr, hhigh.trans hL, (congrArg BitVec.toNat hlow).trans hN, hcE.trans ?_⟩
    change distance (exhausted c) (L ++ N) < path.hops.length ↔ N.toNat < path.hops.length
    omega

theorem min_of_limitKept (L N : BitVec 8) (path : IntPath c d.toSegments (L ++ N) m)
    (h : LimitKept d.toSegments m L N path.hops) :
    min path.hops.length (distance (exhausted c) (L ++ N)) = min path.hops.length N.toNat := by
  obtain ⟨out, hrun, hL, hN, -⟩ := h.leaves
  obtain ⟨t, hr, ht⟩ := runPath_source d path path.transits (fun _ hm => hm)
  cases hrun.symm.trans hr
  obtain ⟨hhigh, hlow, -⟩ := tracks_bytes ht
  rw [iterate_eq] at hhigh hlow
  exact (count_bytes_iff L N (exhausted c) path.hops.length).mp
    ⟨hhigh.symm.trans hL, (congrArg BitVec.toNat hlow).symm.trans hN⟩

/-- The limit of the source is kept exactly when the constants of the program
have its upper byte, or the path is too short for the difference to show. -/
theorem hop_limit_kept_iff (L N : BitVec 8) (path : IntPath c d.toSegments (L ++ N) m) :
    LimitKept d.toSegments m L N path.hops ↔
      exhausted c = L ++ 0#8 ∨ path.hops.length ≤ min N.toNat (distance (exhausted c) (L ++ N)) := by
  rw [← min_distance_iff]
  exact ⟨min_of_limitKept d L N path, limitKept_of_min d L N path⟩

end Runs

def samplePath (L N : BitVec 8) : IntPath sampleConstants sampleDatagram.toSegments (L ++ N) 0x00cc where
  source := sampleHop true (.configureSource (L ++ N) 0x00cc)
  transits := [sampleHop false .defaultConf]
  isSource := ⟨rfl, rfl⟩
  isTransit := by
    intro hop hm
    rw [List.mem_singleton.mp hm]
    exact ⟨rfl, rfl⟩
  constants := by
    intro hop hm
    rcases List.mem_cons.mp hm with rfl | hm
    · rfl
    · rw [List.mem_singleton.mp hm]
      rfl

/-- A flow configured for three words and one hop passes the constant 0x0600
by: the second node takes the count below zero and into the upper byte. -/
theorem hop_limit_missed : ¬ LimitKept sampleDatagram.toSegments 0x00cc 3 1 (samplePath 3 1).hops := by
  intro h
  have hm := (min_distance_iff 3 1 (exhausted sampleConstants) (samplePath 3 1).hops.length).mp
    (min_of_limitKept sampleDatagram 3 1 (samplePath 3 1) h)
  exact absurd hm (by decide)

end IntPlatform.P4c.HopLimit
