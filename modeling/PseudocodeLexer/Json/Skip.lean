import PseudocodeLexer.Json.Number
import PseudocodeLexer.Json.String

/-!
# Skipping a value

A value that nobody asked for is skipped, however deep it is nested. The brackets that are open are
kept in a list, so the depth of a document costs nothing but that list. What may come next
(`Pending`) together with the open brackets says all there is to know.
-/

namespace PseudocodeLexer.Json

inductive Frame where
  | list
  | object
  deriving DecidableEq

inductive Pending where
  | value
  /-- A key of an object. -/
  | key
  /-- The colon behind a key. -/
  | colon
  /-- Behind an opening bracket: an item, or the closing bracket. -/
  | firstItem
  /-- Behind an item: a comma, the closing bracket, or nothing when no bracket is open. -/
  | nextItem
  deriving DecidableEq

/-- A first item is looked for before it is taken. -/
def Pending.weight : Pending → Nat
  | .firstItem => 1
  | _ => 0

namespace Frame

def close : Frame → Symbol
  | .list => .char ']'
  | .object => .char '}'

/-- What an item begins with. -/
def item : Frame → Pending
  | .list => .value
  | .object => .key

@[simp]
theorem weight_item (frame : Frame) : frame.item.weight = 0 := by
  cases frame <;> rfl

def endCause : Frame → Cause
  | .list => .endInList
  | .object => .endInObject

def commaCause : Frame → Cause
  | .list => .expectedListCommaOrEnd
  | .object => .expectedObjectCommaOrEnd

end Frame

/-- Skips a value that holds no others, given its first symbol. -/
def skipScalar (first : Symbol) (rest : List Symbol) : Except Failure (List Symbol) :=
  match first with
  | .char 'n' => takeLiteral "ull".toList rest
  | .char 't' => takeLiteral "rue".toList rest
  | .char 'f' => takeLiteral "alse".toList rest
  | .char '-' => skipNumber rest
  | .char '"' => skipString rest
  | x =>
      match x.digit? with
      | some _ => skipNumber (x :: rest)
      | none => .error (.next .expectedValue (x :: rest))

theorem length_le_of_skipScalar {first : Symbol} {s rest : List Symbol}
    (h : skipScalar first s = .ok rest) : rest.length ≤ s.length := by
  unfold skipScalar at h
  split at h
  · exact length_le_of_takeLiteral h
  · exact length_le_of_takeLiteral h
  · exact length_le_of_takeLiteral h
  · exact Nat.le_of_lt (length_lt_of_skipNumber h)
  · exact length_le_of_skipString h
  · split at h
    · exact Nat.le_of_lt_succ (length_lt_of_skipNumber h)
    · simp at h

/-- Skips what is pending and then whatever the open brackets ask for. -/
def skip (pending : Pending) (frames : List Frame) (s : List Symbol) :
    Except Failure (List Symbol) :=
  match pending, frames, s with
  | .value, _, [] => .error (.next .endInValue [])
  | .value, frames, x :: rest =>
      if x.isBlank then skip .value frames rest
      else if x = .char '[' then skip .firstItem (.list :: frames) rest
      else if x = .char '{' then skip .firstItem (.object :: frames) rest
      else match h : skipScalar x rest with
        | .error failure => .error failure
        | .ok after =>
            have := length_le_of_skipScalar h
            skip .nextItem frames after
  | .key, _, [] => .error (.next .endInObject [])
  | .key, frames, x :: rest =>
      if x.isBlank then skip .key frames rest
      else if x = .char '"' then
        match h : skipString rest with
        | .error failure => .error failure
        | .ok after =>
            have := length_le_of_skipString h
            skip .colon frames after
      else .error (.next .keyNotString (x :: rest))
  | .colon, _, [] => .error (.next .endInObject [])
  | .colon, frames, x :: rest =>
      if x.isBlank then skip .colon frames rest
      else if x = .char ':' then skip .value frames rest
      else .error (.next .expectedColon (x :: rest))
  | .firstItem, [], s => .ok s
  | .firstItem, frame :: _, [] => .error (.next frame.endCause [])
  | .firstItem, frame :: frames, x :: rest =>
      if x.isBlank then skip .firstItem (frame :: frames) rest
      else if x = frame.close then skip .nextItem frames rest
      else skip frame.item (frame :: frames) (x :: rest)
  | .nextItem, [], s => .ok s
  | .nextItem, frame :: _, [] => .error (.next frame.endCause [])
  | .nextItem, frame :: frames, x :: rest =>
      if x.isBlank then skip .nextItem (frame :: frames) rest
      else if x = .char ',' then skip frame.item (frame :: frames) rest
      else if x = frame.close then skip .nextItem frames rest
      else .error (.next frame.commaCause (x :: rest))
termination_by 2 * s.length + pending.weight
decreasing_by
  all_goals simp only [List.length_cons, Frame.weight_item]
  all_goals simp only [Pending.weight]
  all_goals omega

theorem length_le_of_skip {pending : Pending} {frames : List Frame} {s rest : List Symbol}
    (h : skip pending frames s = .ok rest) : rest.length ≤ s.length := by
  fun_induction skip pending frames s <;> grind

/-- Skips one value. -/
def skipValue (s : List Symbol) : Except Failure (List Symbol) :=
  skip .value [] s

theorem length_le_of_skipValue {s rest : List Symbol} (h : skipValue s = .ok rest) :
    rest.length ≤ s.length :=
  length_le_of_skip h

end PseudocodeLexer.Json
