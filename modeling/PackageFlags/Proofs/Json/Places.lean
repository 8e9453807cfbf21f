import PackageFlags.Json.Value

/-!
# Places in a JSON value

The objects inside a value are reached by paths of member names. A member is put into
one of them when nothing else changes, however the members of the objects on the way
are written.
-/

namespace PackageFlags
namespace Json
namespace Value

/-- The members of the object that a path of names leads to. -/
def membersAt? : List String -> Value -> Option (NameMap Value)
  | [], value => value.members?
  | step :: path, value =>
      value.members?.bind fun members => (members.get? step).bind (membersAt? path)

/-- The second value is the first one with a member put into the object that a path
leads to, in place of one that has the same name there. -/
def Puts
    (name : String)
    (member : Value) : List String -> Value -> Value -> Prop
  | [], before, after =>
      ∃ members, before.members? = some members
        ∧ after.members? = some (members.insert name member)
  | step :: path, before, after =>
      ∃ members inner innerAfter, before.members? = some members
        ∧ members.get? step = some inner
        ∧ Puts name member path inner innerAfter
        ∧ after.members? = some (members.insert step innerAfter)

variable {name step : String} {member : Value} {path : List String}
variable {before after : Value}

theorem membersAt?_cons_eq_some_iff {members : NameMap Value} :
    before.membersAt? (step :: path) = some members ↔
      ∃ outer inner, before.members? = some outer ∧ outer.get? step = some inner
        ∧ inner.membersAt? path = some members := by
  simp [membersAt?, Option.bind_eq_some_iff]

/-- The last name of a path is a member of the object before it. -/
theorem membersAt?_concat (path : List String) (step : String) (value : Value) :
    value.membersAt? (path ++ [step]) =
      (value.membersAt? path).bind fun members => (members.get? step).bind members? := by
  induction path generalizing value with
  | nil => rfl
  | cons first path pathConcat =>
      simp only [List.cons_append, membersAt?, funext pathConcat, Option.bind_assoc]

theorem membersAt?_concat_eq_some
    {outer members : NameMap Value}
    {inner : Value}
    (isOuter : before.membersAt? path = some outer)
    (isInner : outer.get? step = some inner)
    (isObject : inner.members? = some members) :
    before.membersAt? (path ++ [step]) = some members := by
  rw [membersAt?_concat, isOuter, Option.bind_some, isInner, Option.bind_some, isObject]

namespace Puts

/-- A member may be written at the end of an object. -/
theorem concat
    (written : List (String × Value))
    (name : String)
    (member : Value) :
    Puts name member [] (.object written) (.object (written ++ [(name, member)])) :=
  ⟨_, rfl, congrArg some (NameMap.ofList_concat written name member)⟩

/-- The object that it is written in may be the last member of another one. -/
theorem concat_last
    (written : List (String × Value))
    (step : String)
    (isPut : Puts name member path before after) :
    Puts name member (step :: path) (.object (written ++ [(step, before)]))
      (.object (written ++ [(step, after)])) := by
  refine ⟨_, before, after, congrArg some (NameMap.ofList_concat written step before),
    NameMap.get?_insert_self .., isPut, ?_⟩
  rw [NameMap.insert_insert, ← NameMap.ofList_concat, members?]

/-- Only the member that is put in changes the object that the path leads to. -/
theorem exists_membersAt? (isPut : Puts name member path before after) :
    ∃ members, before.membersAt? path = some members
      ∧ after.membersAt? path = some (members.insert name member) := by
  induction path generalizing before after with
  | nil => exact isPut
  | cons step path pathMembers =>
      obtain ⟨outer, inner, innerAfter, isObject, isInner, isPut, isAfter⟩ := isPut
      obtain ⟨members, wasMembers, areMembers⟩ := pathMembers isPut
      refine ⟨members, membersAt?_cons_eq_some_iff.mpr ⟨outer, inner, isObject, isInner,
        wasMembers⟩, membersAt?_cons_eq_some_iff.mpr ⟨_, innerAfter, isAfter,
        NameMap.get?_insert_self .., areMembers⟩⟩

/-- A value whose members have been changed is an object that has one. -/
theorem exists_members? (isPut : Puts name member path before after) :
    ∃ members, after.members? = some members ∧ members.isEmpty = false := by
  cases path with
  | nil =>
      obtain ⟨members, _, isAfter⟩ := isPut
      exact ⟨_, isAfter, NameMap.isEmpty_insert members name member⟩
  | cons step path =>
      obtain ⟨members, _, innerAfter, _, _, _, isAfter⟩ := isPut
      exact ⟨_, isAfter, NameMap.isEmpty_insert members step innerAfter⟩

/-- Putting a member into an object is putting the object with it into the one
around. -/
theorem outward (isPut : Puts name member (path ++ [step]) before after) :
    ∃ members inner innerAfter, before.membersAt? path = some members
      ∧ members.get? step = some inner
      ∧ Puts name member [] inner innerAfter
      ∧ Puts step innerAfter path before after := by
  induction path generalizing before after with
  | nil =>
      obtain ⟨members, inner, innerAfter, isObject, isInner, isPut, isAfter⟩ := isPut
      exact ⟨members, inner, innerAfter, isObject, isInner, isPut, members, isObject,
        isAfter⟩
  | cons first path pathOutward =>
      obtain ⟨outer, middle, middleAfter, isObject, isMiddle, isPut, isAfter⟩ := isPut
      obtain ⟨members, inner, innerAfter, areMembers, isInner, isInnermost, isOutward⟩ :=
        pathOutward isPut
      refine ⟨members, inner, innerAfter, ?_, isInner, isInnermost, outer, middle,
        middleAfter, isObject, isMiddle, isOutward, isAfter⟩
      exact membersAt?_cons_eq_some_iff.mpr ⟨outer, middle, isObject, isMiddle, areMembers⟩

end Puts
end Value
end Json
end PackageFlags
