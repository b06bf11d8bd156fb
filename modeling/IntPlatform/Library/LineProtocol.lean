import IntPlatform.Library.Numerals

namespace IntPlatform.Library.LineProtocol

open Numerals

/-- A line of the protocol: a measurement with its tags, then the fields, then
the time. -/
structure Point where
  measurement : List Char
  tags : List (List Char × List Char)
  fields : List (List Char × List Char)
  timestamp : List Char
deriving DecidableEq, Repr

def entry (e : List Char × List Char) : List Char := e.1 ++ '=' :: e.2

def Point.write (p : Point) : List Char :=
  [' '].intercalate [[','].intercalate (p.measurement :: p.tags.map entry),
    [','].intercalate (p.fields.map entry), p.timestamp]

def body (points : List Point) : List Char := points.flatMap fun p => p.write ++ ['\n']

def Point.tag (p : Point) (key : String) : Option (List Char) := p.tags.lookup key.toList

def Point.field (p : Point) (key : String) : Option (List Char) := p.fields.lookup key.toList

def Point.tagNumber (p : Point) (key : String) : Option Int := (p.tag key).bind integer

def Point.number (p : Point) (key : String) : Option Int := (p.field key).bind integer

def Point.numberOrZero (p : Point) (key : String) : Option Int := (p.field key).elim (some 0) integer

def readEntry (text : List Char) : Option (List Char × List Char) :=
  match text.splitOn '=' with
  | [key, value] => some (key, value)
  | _ => none

def readPoint (line : List Char) : Option Point :=
  match line.splitOn ' ' with
  | [front, fields, timestamp] =>
      match front.splitOn ',' with
      | measurement :: tags => do
          let tags ← tags.mapM readEntry
          let fields ← (fields.splitOn ',').mapM readEntry
          pure ⟨measurement, tags, fields, timestamp⟩
      | [] => none
  | _ => none

def readBody (text : List Char) : Option (List Point) := (text.splitOn '\n').dropLast.mapM readPoint

def Plain (text : List Char) : Prop := ∀ c ∈ [',', ' ', '=', '\n'], c ∉ text

instance (text : List Char) : Decidable (Plain text) := List.decidableBAll (· ∉ text) [',', ' ', '=', '\n']

structure Point.Plain (p : Point) : Prop where
  measurement : LineProtocol.Plain p.measurement
  tags : ∀ e ∈ p.tags, LineProtocol.Plain e.1 ∧ LineProtocol.Plain e.2
  fields : ∀ e ∈ p.fields, LineProtocol.Plain e.1 ∧ LineProtocol.Plain e.2
  fields_ne_nil : p.fields ≠ []
  timestamp : LineProtocol.Plain p.timestamp

theorem lookup_of_ne (key other value : List Char) (entries : List (List Char × List Char))
    (h : key ≠ other) : ((other, value) :: entries).lookup key = entries.lookup key := by
  rw [List.lookup_cons, beq_false_of_ne h]

theorem notMem_entry (c : Char) (e : List Char × List Char) (hc : c ∈ [',', ' ', '\n'])
    (h : Plain e.1 ∧ Plain e.2) : c ∉ entry e := by
  have hne : c ≠ '=' := by
    rintro rfl
    revert hc
    decide
  have hmem : c ∈ [',', ' ', '=', '\n'] := by
    simp only [List.mem_cons, List.not_mem_nil, or_false] at hc ⊢
    tauto
  rw [entry, List.mem_append, List.mem_cons, not_or, not_or]
  exact ⟨h.1 c hmem, hne, h.2 c hmem⟩

theorem notMem_intercalate {α : Type} (c sep : α) (parts : List (List α)) (hc : c ≠ sep)
    (h : ∀ part ∈ parts, c ∉ part) : c ∉ [sep].intercalate parts := by
  induction parts with
  | nil => exact List.not_mem_nil
  | cons part parts ih =>
      have hpart := h part List.mem_cons_self
      cases parts with
      | nil => rwa [List.intercalate_singleton]
      | cons next parts =>
          have hrest := ih fun q hq => h q (List.mem_cons_of_mem part hq)
          simp only [List.intercalate_cons_cons, List.mem_append, List.mem_singleton, not_or]
          exact ⟨⟨hpart, hc⟩, hrest⟩

theorem readEntry_entry (e : List Char × List Char) (h : Plain e.1 ∧ Plain e.2) :
    readEntry (entry e) = some e := by
  have hjoin : entry e = ['='].intercalate [e.1, e.2] := by
    simp [List.intercalate_cons_cons, List.intercalate_singleton, entry]
  have hsplit : (entry e).splitOn '=' = [e.1, e.2] := by
    rw [hjoin]
    apply List.splitOn_intercalate
    · intro text ht
      simp only [List.mem_cons, List.not_mem_nil, or_false] at ht
      rcases ht with rfl | rfl
      · exact h.1 '=' (by decide)
      · exact h.2 '=' (by decide)
    · exact List.cons_ne_nil _ _
  rw [readEntry, hsplit]

theorem mapM_readEntry (entries : List (List Char × List Char))
    (h : ∀ e ∈ entries, Plain e.1 ∧ Plain e.2) : (entries.map entry).mapM readEntry = some entries := by
  induction entries with
  | nil => rfl
  | cons e entries ih =>
      have hrest := ih fun e' he' => h e' (List.mem_cons_of_mem e he')
      rw [List.map_cons, List.mapM_cons, readEntry_entry e (h e List.mem_cons_self), hrest]
      rfl

section Written

variable (p : Point) (hp : p.Plain)

include hp

theorem front_notMem (c : Char) (hc : c ∈ [' ', '\n']) :
    c ∉ [','].intercalate (p.measurement :: p.tags.map entry) := by
  have hplain : c ∈ [',', ' ', '=', '\n'] := by
    simp only [List.mem_cons, List.not_mem_nil, or_false] at hc ⊢
    tauto
  have hentry : c ∈ [',', ' ', '\n'] := List.mem_cons_of_mem ',' hc
  apply notMem_intercalate
  · rintro rfl
    revert hc
    decide
  · intro part hpart
    rcases List.mem_cons.mp hpart with rfl | hpart
    · exact hp.measurement c hplain
    · obtain ⟨e, he, rfl⟩ := List.mem_map.mp hpart
      exact notMem_entry c e hentry (hp.tags e he)

theorem fields_notMem (c : Char) (hc : c ∈ [' ', '\n']) :
    c ∉ [','].intercalate (p.fields.map entry) := by
  apply notMem_intercalate
  · rintro rfl
    revert hc
    decide
  · intro part hpart
    obtain ⟨e, he, rfl⟩ := List.mem_map.mp hpart
    exact notMem_entry c e (List.mem_cons_of_mem ',' hc) (hp.fields e he)

theorem newline_notMem_write : '\n' ∉ p.write := by
  apply notMem_intercalate
  · decide
  · intro part hpart
    simp only [List.mem_cons, List.not_mem_nil, or_false] at hpart
    rcases hpart with rfl | rfl | rfl
    · exact front_notMem p hp '\n' (by decide)
    · exact fields_notMem p hp '\n' (by decide)
    · exact hp.timestamp '\n' (by decide)

theorem splitOn_write : p.write.splitOn ' ' = [[','].intercalate (p.measurement :: p.tags.map entry),
    [','].intercalate (p.fields.map entry), p.timestamp] := by
  apply List.splitOn_intercalate
  · intro part hpart
    simp only [List.mem_cons, List.not_mem_nil, or_false] at hpart
    rcases hpart with rfl | rfl | rfl
    · exact front_notMem p hp ' ' (by decide)
    · exact fields_notMem p hp ' ' (by decide)
    · exact hp.timestamp ' ' (by decide)
  · exact List.cons_ne_nil _ _

theorem readPoint_write : readPoint p.write = some p := by
  have hentry (e : List Char × List Char) (h : Plain e.1 ∧ Plain e.2) : ',' ∉ entry e :=
    notMem_entry ',' e (by decide) h
  have hfront : ([','].intercalate (p.measurement :: p.tags.map entry)).splitOn ',' =
      p.measurement :: p.tags.map entry := by
    apply List.splitOn_intercalate
    · intro part hpart
      rcases List.mem_cons.mp hpart with rfl | hpart
      · exact hp.measurement ',' (by decide)
      · obtain ⟨e, he, rfl⟩ := List.mem_map.mp hpart
        exact hentry e (hp.tags e he)
    · exact List.cons_ne_nil _ _
  have hfields : ([','].intercalate (p.fields.map entry)).splitOn ',' = p.fields.map entry := by
    apply List.splitOn_intercalate
    · intro part hpart
      obtain ⟨e, he, rfl⟩ := List.mem_map.mp hpart
      exact hentry e (hp.fields e he)
    · rw [ne_eq, List.map_eq_nil_iff]
      exact hp.fields_ne_nil
  rw [readPoint, splitOn_write p hp]
  dsimp only
  rw [hfront]
  dsimp only
  rw [mapM_readEntry _ hp.tags, hfields, mapM_readEntry _ hp.fields]
  rfl

end Written

theorem splitOn_flatMap (rows : List (List Char)) (h : ∀ row ∈ rows, '\n' ∉ row) :
    (rows.flatMap fun row => row ++ ['\n']).splitOn '\n' = rows ++ [[]] := by
  have hjoin : (rows.flatMap fun row => row ++ ['\n']) = ['\n'].intercalate (rows ++ [[]]) := by
    induction rows with
    | nil => rfl
    | cons row rows ih =>
        rw [List.flatMap_cons, ih fun r hr => h r (List.mem_cons_of_mem row hr)]
        cases rows <;> simp [List.intercalate_cons_cons]
  rw [hjoin]
  apply List.splitOn_intercalate
  · intro row hrow
    rcases List.mem_append.mp hrow with hrow | hrow
    · exact h row hrow
    · rw [List.mem_singleton.mp hrow]
      exact List.not_mem_nil
  · exact List.append_ne_nil_of_right_ne_nil rows (List.cons_ne_nil _ _)

theorem mapM_readPoint (points : List Point) (h : ∀ p ∈ points, p.Plain) :
    (points.map Point.write).mapM readPoint = some points := by
  induction points with
  | nil => rfl
  | cons p points ih =>
      have hrest := ih fun q hq => h q (List.mem_cons_of_mem p hq)
      rw [List.map_cons, List.mapM_cons, readPoint_write p (h p List.mem_cons_self), hrest]
      rfl

theorem readBody_body (points : List Point) (h : ∀ p ∈ points, p.Plain) :
    readBody (body points) = some points := by
  have hsplit := splitOn_flatMap (points.map Point.write) (by
    intro row hrow
    obtain ⟨p, hp, rfl⟩ := List.mem_map.mp hrow
    exact newline_notMem_write p (h p hp))
  rw [List.flatMap_map] at hsplit
  rw [readBody, body, hsplit, List.dropLast_concat, mapM_readPoint points h]

theorem write_eq (p : Point) : p.write = [','].intercalate (p.measurement :: p.tags.map entry) ++
    ' ' :: ([','].intercalate (p.fields.map entry) ++ ' ' :: p.timestamp) := by
  simp only [Point.write, List.intercalate_cons_cons, List.intercalate_singleton, List.append_assoc,
    List.cons_append, List.nil_append]

theorem intercalate_concat (part last : List Char) (parts : List (List Char)) :
    [','].intercalate (part :: (parts ++ [last])) = [','].intercalate (part :: parts) ++ ',' :: last := by
  induction parts generalizing part with
  | nil => simp [List.intercalate_cons_cons]
  | cons next parts ih =>
      rw [List.cons_append, List.intercalate_cons_cons, ih, List.intercalate_cons_cons, List.append_assoc,
        List.append_assoc, List.append_assoc]

theorem body_append (a b : List Point) : body (a ++ b) = body a ++ body b := List.flatMap_append

end IntPlatform.Library.LineProtocol
