import Reckoner.Registry.Basic
import Mathlib.Data.List.Basic

/-!
# Names and owners

* `Registry.Distinct` — no name is in the table twice.
* `Registry.owner?_eq_some_iff` — in such a table looking up is being an entry.
* `Registry.handle_register`, `Registry.handle_deregister` — what the commands that change the table
  do to it and reply.
-/

namespace Reckoner

namespace Registry

variable {r : Registry} {name : String} {owner : Owner} {session : Nat}

/-- No name is in the table twice. -/
def Distinct (r : Registry) : Prop := (r.owners.map Prod.fst).Nodup

theorem owner?_eq_none_iff : r.owner? name = none ↔ ∀ owner, (name, owner) ∉ r.owners := by
  rw [owner?, List.lookup_eq_none_iff]
  constructor
  · intro h owner hmem
    exact absurd (h _ hmem) (by simp)
  · rintro h ⟨other, owner⟩ hmem
    rw [bne_iff_ne]
    rintro rfl
    exact h owner hmem

theorem Distinct.owner?_eq_some_iff (h : r.Distinct) :
    r.owner? name = some owner ↔ (name, owner) ∈ r.owners := by
  rw [owner?, List.lookup_eq_some_iff]
  constructor
  · rintro ⟨before, after, howners, -⟩
    rw [howners]
    exact List.mem_append_right _ List.mem_cons_self
  · intro hmem
    obtain ⟨before, after, howners⟩ := List.append_of_mem hmem
    refine ⟨before, after, howners, ?_⟩
    rintro ⟨other, owner'⟩ hbefore
    rw [bne_iff_ne]
    rintro rfl
    -- The name would be in the table twice.
    rw [Distinct, howners, List.map_append, List.nodup_append] at h
    exact h.2.2 _ (List.mem_map_of_mem hbefore) _ (List.mem_map_of_mem List.mem_cons_self) rfl

/-! ### Commands -/

/-- A name that is free is given, and a name that is not stays where it is. -/
theorem handle_register (r : Registry) (name : String) (owner : Owner) :
    (∃ other e, r.owner? name = some other ∧
        r.handle (.register name owner) = (r, .registered (.error e))) ∨
      (r.owner? name = none ∧ ∃ r', r.handle (.register name owner) = (r', .registered (.ok ())) ∧
        r'.owners = r.owners ++ [(name, owner)]) := by
  cases hother : r.owner? name with
  | some other =>
    refine .inl ⟨other, .nameTaken name, rfl, ?_⟩
    simp only [handle, register, hother]
  | none =>
    refine .inr ⟨rfl, ⟨r.owners ++ [(name, owner)], r.events ++ [.joined name]⟩, ?_, rfl⟩
    simp only [handle, register, hother]

/-- The owner of a name can give it back. -/
theorem handle_deregister (h : r.owner? name = some owner) :
    ∃ r', r.handle (.deregister name owner.session) = (r', .deregistered true) ∧
      r'.owners = r.owners.filter fun entry => entry.1 ≠ name := by
  refine ⟨⟨r.owners.filter fun entry => entry.1 ≠ name, r.events ++ [.left name]⟩, ?_, rfl⟩
  simp only [handle, deregister, h, if_pos]

theorem Distinct.append (h : r.Distinct) (hfree : r.owner? name = none) :
    ((r.owners ++ [(name, owner)]).map Prod.fst).Nodup := by
  rw [List.map_append, List.nodup_append]
  refine ⟨h, by simp, ?_⟩
  intro other hother given hgiven
  obtain ⟨⟨_, owner'⟩, hmem, rfl⟩ := List.mem_map.mp hother
  rw [List.map_singleton, List.mem_singleton] at hgiven
  rintro rfl
  subst hgiven
  exact owner?_eq_none_iff.mp hfree owner' hmem

theorem Distinct.filter (h : r.Distinct) (p : String × Owner → Bool) :
    ((r.owners.filter p).map Prod.fst).Nodup :=
  h.sublist (List.filter_sublist.map Prod.fst)

end Registry

end Reckoner
