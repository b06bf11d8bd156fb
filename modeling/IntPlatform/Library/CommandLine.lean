import Mathlib.Data.List.Basic
import IntPlatform.Library.Numerals

namespace IntPlatform.Library.CommandLine

open Numerals

/-- What getopt returns for one option letter: a known option with its
argument, or the question mark. -/
inductive Scanned
  | option (c : Char) (optarg : List Char)
  | unknown
deriving DecidableEq, Repr

def takesArgument : List Char → Char → Option Bool
  | [], _ => none
  | x :: optstring, c =>
      if x = c ∧ c ≠ ':' then some (optstring.head? = some ':') else takesArgument optstring c

/-- The letters of one element. An argument stands behind its letter or in the
next element, which is then taken. -/
def letters (optstring : List Char) : List Char → Option (List Char) → List Scanned × Bool
  | [], _ => ([], false)
  | c :: cs, next =>
      match takesArgument optstring c, cs, next with
      | some true, [], some optarg => ([.option c optarg], true)
      | some true, [], none => ([.unknown], false)
      | some true, optarg, _ => ([.option c optarg], false)
      | some false, cs, next =>
          let r := letters optstring cs next
          (.option c [] :: r.1, r.2)
      | none, cs, next =>
          let r := letters optstring cs next
          (.unknown :: r.1, r.2)

/-- The results of getopt up to the end. Other elements are passed over, but
under strict ordering the first of them is the end. -/
def getopt (optstring : List Char) (strict : Bool) : Bool → List (List Char) → List Scanned
  | _, [] => []
  | true, _ :: args => getopt optstring strict false args
  | false, arg :: args =>
      match arg with
      | ['-', '-'] => []
      | '-' :: c :: cs =>
          let r := letters optstring (c :: cs) args.head?
          r.1 ++ getopt optstring strict r.2 args
      | _ => if strict then [] else getopt optstring strict false args

def argument (c : Char) : Scanned → Option (List Char)
  | .option c' optarg => if c' = c then some optarg else none
  | .unknown => none

def lastArgument (c : Char) (scanned : List Scanned) : Option (List Char) :=
  (scanned.filterMap (argument c)).getLast?

/-- A field that only one kind of step sets has its last value after a run. -/
theorem foldlM_last {σ α β γ ε : Type} (step : σ → α → Except ε σ) (field : σ → γ) (key : α → Option β)
    (value : β → γ) (hstep : ∀ s a s', step s a = .ok s' → field s' = ((key a).map value).getD (field s))
    (l : List α) (s s' : σ) (h : l.foldlM step s = .ok s') :
    field s' = ((l.filterMap key).getLast?.map value).getD (field s) := by
  induction l generalizing s with
  | nil =>
      cases h
      rfl
  | cons a l ih =>
      rw [List.foldlM_cons] at h
      cases hs : step s a with
      | error e =>
          rw [hs] at h
          cases h
      | ok t =>
          rw [hs] at h
          rw [ih t h, hstep s a t hs]
          cases hkey : key a with
          | none => rw [List.filterMap_cons_none hkey, Option.map_none, Option.getD_none]
          | some b =>
              rw [List.filterMap_cons_some hkey, List.getLast?_cons, Option.map_some, Option.getD_some,
                Option.map_some, Option.getD_some]
              cases (l.filterMap key).getLast? with
              | none => rfl
              | some b' => rfl

def isSpace (c : Char) : Bool := c = ' ' || ('\t' ≤ c && c ≤ '\r')

/-- The number at the front of a text behind blanks and a sign: whether it is
negative, and its digits. -/
def decimal (text : List Char) : Bool × Nat :=
  let digits (text : List Char) := (numeral 10 (text.takeWhile Char.isDigit)).getD 0
  match text.dropWhile isSpace with
  | '-' :: text => (true, digits text)
  | '+' :: text => (false, digits text)
  | text => (false, digits text)

/-- The value and whether errno is set to ERANGE. -/
def strtol (text : List Char) : BitVec 64 × Bool :=
  match decimal text with
  | (true, v) => if v ≤ 2 ^ 63 then (-BitVec.ofNat 64 v, false) else (BitVec.intMin 64, true)
  | (false, v) => if v < 2 ^ 63 then (BitVec.ofNat 64 v, false) else (BitVec.intMax 64, true)

def strtoumax (text : List Char) : BitVec 64 × Bool :=
  match decimal text with
  | (negative, v) =>
      if v < 2 ^ 64 then (if negative then -BitVec.ofNat 64 v else BitVec.ofNat 64 v, false)
      else (BitVec.allOnes 64, true)

/-- As in glibc, with the errno of strtol. -/
def atoi (text : List Char) : BitVec 32 × Bool := ((strtol text).1.setWidth 32, (strtol text).2)

end IntPlatform.Library.CommandLine
