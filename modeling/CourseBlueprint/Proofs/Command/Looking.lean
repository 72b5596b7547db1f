import CourseBlueprint.Proofs.Isolation.Commands

/-!
# Looking changes nothing

Showing the locks of blueprint content or of a copy, listing the copies that were changed, and looking
ahead at the next sync leave a store as they found it, whether they are answered or fail. A data
directory keeps its files and their texts, and one that is missing is not made; in memory all four
tables stay. The one trace that is left is in memory, where each look-up of master tags is noted
(`Store.LookedAt`).
-/

namespace CourseBlueprint

namespace Store

/-- What looking leaves of a store. -/
inductive LookedAt : Store → Store → Prop where
  | memory (tables : Tables) (writesFail : Bool) (lookups noted : List (List String))
      (p : Supply) :
    LookedAt ⟨.memory ⟨tables, writesFail, lookups⟩, p⟩
      ⟨.memory ⟨tables, writesFail, lookups ++ noted⟩, p⟩
  | directory (d : Directory) (p : Supply) : LookedAt ⟨.directory d, p⟩ ⟨.directory d, p⟩

variable {s s' s'' s₀ : Store}

theorem LookedAt.refl (s : Store) : s.LookedAt s := by
  obtain ⟨⟨tables, writesFail, lookups⟩ | d, p⟩ := s
  · have h := LookedAt.memory tables writesFail lookups [] p
    rwa [List.append_nil] at h
  · exact .directory d p

theorem LookedAt.trans (h : s.LookedAt s') (h' : s'.LookedAt s'') : s.LookedAt s'' := by
  cases h with
  | directory d p => exact h'
  | memory tables writesFail lookups noted p =>
    obtain ⟨-, -, -, noted', -⟩ := h'
    rw [List.append_assoc]
    exact .memory tables writesFail lookups (noted ++ noted') p

/-- Looking up master tags is noted in memory, and leaves nothing in a directory. -/
theorem lookedAt_masterTagsWith : KeptByLooking s₀.LookedAt := by
  refine fun ids => Action.keeps_iff.2 fun s hs => hs.trans ?_
  obtain ⟨⟨tables, writesFail, lookups⟩ | d, p⟩ := s
  · exact .memory tables writesFail lookups [ids] p
  · have hplace : ((Directory.masterTagsOf ids).run d).2 = d := by
      rw [Directory.masterTagsOf, Directory.masterTags, Action.run_read (Directory.run_rows _ d)]
    rw [masterTagsWith, run_onPlace_directory, hplace]
    exact .directory d p

/-- An action that keeps all that looking keeps does no more than look. -/
theorem lookedAt_of_keeps {α : Type} {x : Action Store α} (h : Action.Keeps s.LookedAt x) :
    s.LookedAt (x.run s).2 := Action.keeps_iff.1 h s (.refl s)

end Store

namespace Request

open Store (lookedAt_of_keeps lookedAt_masterTagsWith)

variable (b : Rulebook)

/-- A request that looks leaves the store as it was. -/
theorem lookedAt_run (q : Request) (hlooks : q.looks = true) (s : Store) :
    s.LookedAt ((q.run b).run s).2 := by
  cases q with
  | showContent course content =>
    exact lookedAt_of_keeps (Command.keeps_showContent lookedAt_masterTagsWith course content)
  | inspect content =>
    exact lookedAt_of_keeps (Command.keeps_inspect lookedAt_masterTagsWith content)
  | status id => exact lookedAt_of_keeps (Command.keeps_status id)
  | preview content =>
    exact lookedAt_of_keeps (Command.keeps_preview lookedAt_masterTagsWith content)
  | _ => cases hlooks

/-- Any number of looks, one after the other, leaves the store as it was. -/
theorem lookedAt_runAll {qs : List Request} (hlooks : ∀ q ∈ qs, q.looks = true) (s : Store) :
    s.LookedAt (runAll b qs s) := by
  induction qs generalizing s with
  | nil => exact .refl s
  | cons q qs ih =>
    have hfirst : s.LookedAt ((q.run b).run s).2 := lookedAt_run b q (hlooks q List.mem_cons_self) s
    have hrest := ih (fun r hr => hlooks r (List.mem_cons_of_mem q hr)) ((q.run b).run s).2
    exact hfirst.trans hrest

end Request

namespace Command

/-- The commands that look write nothing, whatever the store holds and whether or not they find what
they look for. -/
theorem looking_writes_nothing (b : Rulebook) (s : Store) :
    (∀ course content, s.LookedAt ((showContent b course content).run s).2) ∧
      (∀ content, s.LookedAt ((inspect b content).run s).2) ∧
      (∀ id, s.LookedAt ((status id).run s).2) ∧
      (∀ content, s.LookedAt ((preview b content).run s).2) := by
  refine ⟨fun course content => ?_, fun content => ?_, fun id => ?_, fun content => ?_⟩
  · exact Request.lookedAt_run b (.showContent course content) rfl s
  · exact Request.lookedAt_run b (.inspect content) rfl s
  · exact Request.lookedAt_run b (.status id) rfl s
  · exact Request.lookedAt_run b (.preview content) rfl s

end Command

end CourseBlueprint
