import Rubric.Json.Basic
import Rubric.Proofs.Occurrences

/-!
Repeated keys. Of several members with a key the last one counts, so what an object has under a key
is decided by the last occurrence of the key, whatever else the object holds. One key is left of
all members when they all have it.
-/
namespace Rubric.Json

/-- What an object has under a key: nothing, or the value of the last member with it. -/
inductive Holds (members : List (String × Json)) (key : String) : Option Json → Prop
  | absent (h : ∀ member ∈ members, member.1 ≠ key) : Holds members key none
  | last (value : Json) (h : LastWith (fun member => member.1 = key) members (key, value)) :
      Holds members key (some value)

theorem holds_lastMember? (members : List (String × Json)) (key : String) :
    Holds members key (lastMember? members key) := by
  unfold lastMember?
  cases hfind : members.reverse.find? fun member => member.1 == key with
  | none =>
    apply Holds.absent
    intro member hmember
    have hnone := List.find?_eq_none.mp hfind member (List.mem_reverse.mpr hmember)
    simpa using hnone
  | some member =>
    have hlast := (find?_reverse_eq_some_iff_lastWith _ members member).mp hfind
    simp only [beq_iff_eq] at hlast
    obtain ⟨name, value⟩ := member
    obtain rfl : name = key := by simpa using List.find?_some hfind
    exact Holds.last value hlast

theorem lastMember?_eq_iff_holds (members : List (String × Json)) (key : String)
    (found : Option Json) : lastMember? members key = found ↔ Holds members key found := by
  constructor
  · intro h
    rw [← h]
    exact holds_lastMember? members key
  · intro h
    unfold lastMember?
    cases h with
    | absent h =>
      have hnone : (members.reverse.find? fun member => member.1 == key) = none := by
        rw [List.find?_eq_none]
        intro member hmember
        simpa using h member (List.mem_reverse.mp hmember)
      rw [hnone]
      rfl
    | last value h =>
      have hsome : (members.reverse.find? fun member => member.1 == key) = some (key, value) := by
        rw [find?_reverse_eq_some_iff_lastWith]
        simpa only [beq_iff_eq] using h
      rw [hsome]
      rfl

theorem lastMember?_eq_some_iff (members : List (String × Json)) (key : String) (value : Json) :
    lastMember? members key = some value ↔
      LastWith (fun member => member.1 = key) members (key, value) := by
  rw [lastMember?_eq_iff_holds]
  constructor
  · intro h
    cases h with
    | last _ hlast => exact hlast
  · exact .last value

/-- Members with other keys do not matter to what an object has under a key. -/
theorem lastMember?_filter (members : List (String × Json)) (keep : String → Bool) (key : String)
    (h : keep key = true) :
    lastMember? (members.filter fun member => keep member.1) key = lastMember? members key := by
  unfold lastMember?
  rw [← List.filter_reverse, List.find?_filter]
  congr 2
  funext member
  by_cases hkey : member.1 = key
  · simp [hkey, h]
  · simp [hkey]

theorem lastMembers_cons (member : String × Json) (members : List (String × Json)) :
    lastMembers (member :: members) =
      if (lastMembers members).any fun other => other.1 == member.1 then lastMembers members
      else member :: lastMembers members := rfl

theorem lastMembers_eq_nil_iff (members : List (String × Json)) :
    lastMembers members = [] ↔ members = [] := by
  cases members with
  | nil => simp [lastMembers]
  | cons member members =>
    rw [lastMembers_cons]
    split
    · next hany =>
      -- A key that comes again leaves its last value behind.
      have hne : lastMembers members ≠ [] := by
        intro hnil
        simp [hnil] at hany
      simp [hne]
    · simp

/-- One key is left when all members have it, and then its last value. -/
theorem lastMembers_eq_singleton_iff (members : List (String × Json)) (last : String × Json) :
    lastMembers members = [last] ↔
      ∃ overridden, members = overridden ++ [last] ∧ ∀ member ∈ overridden, member.1 = last.1 := by
  induction members with
  | nil => simp [lastMembers]
  | cons member members ih =>
    rw [lastMembers_cons]
    split
    · next hany =>
      rw [ih]
      constructor
      · intro h
        obtain ⟨overridden, hmembers, hkeys⟩ := h
        have hsingle := ih.mpr ⟨overridden, hmembers, hkeys⟩
        rw [hsingle] at hany
        have hkey : member.1 = last.1 := by
          have hlast : last.1 = member.1 := by simpa using hany
          exact hlast.symm
        refine ⟨member :: overridden, by rw [hmembers, List.cons_append], ?_⟩
        intro other hother
        rcases List.mem_cons.mp hother with rfl | hother
        · exact hkey
        · exact hkeys other hother
      · intro h
        obtain ⟨overridden, hmembers, hkeys⟩ := h
        cases overridden with
        | nil =>
          obtain ⟨-, rfl⟩ := List.cons.inj hmembers
          simp [lastMembers] at hany
        | cons first overridden =>
          obtain ⟨-, hrest⟩ := List.cons.inj hmembers
          exact ⟨overridden, hrest, fun other h => hkeys other (List.mem_cons_of_mem first h)⟩
    · next hany =>
      rw [List.cons.injEq, lastMembers_eq_nil_iff]
      constructor
      · intro h
        obtain ⟨rfl, rfl⟩ := h
        exact ⟨[], rfl, nofun⟩
      · intro h
        obtain ⟨overridden, hmembers, hkeys⟩ := h
        cases overridden with
        | nil => exact List.cons.inj hmembers
        | cons first overridden =>
          -- The member's key comes again at the end, so it would not have been added.
          obtain ⟨rfl, hrest⟩ := List.cons.inj hmembers
          have hsingle := ih.mpr
            ⟨overridden, hrest, fun other h => hkeys other (List.mem_cons_of_mem member h)⟩
          have hkey := hkeys member List.mem_cons_self
          simp [hsingle, hkey] at hany

end Rubric.Json
