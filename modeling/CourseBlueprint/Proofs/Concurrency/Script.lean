import CourseBlueprint.Proofs.Action
import CourseBlueprint.Proofs.Store.Basic

/-!
# Commands that share a store

Two commands that work on one store at the same time take turns: between two calls of a command, the
other may make any number of its own. A `Script` is a command taken apart into its calls of the store,
and `Interleaved` relates the store before and after two scripts that take turns. A call that writes
says what it takes for granted of the tables, which is what an earlier call of the same command has
found. What `takeTurns` computes from a schedule is a case of `Interleaved`.
-/

namespace CourseBlueprint

/-- A command as the calls of the store that it makes, each of which is atomic. A call that fails ends
the command. -/
inductive Script (α : Type) : Type 1 where
  | done (r : Result α)
  /-- A call, with what it takes for granted of the tables. -/
  | call {β : Type} (basis : Tables → Bool) (x : Action Store β) (next : β → Script α)

/-- Whether the tables are as taken for granted, if all can be read. -/
def Stored.grants (st : Stored) (basis : Tables → Bool) : Bool :=
  match st.templates, st.subscriptions, st.masterTags, st.childTags with
  | .ok templates, .ok subscriptions, .ok masterTags, .ok childTags =>
    basis ⟨templates, subscriptions, masterTags, childTags⟩
  | _, _, _, _ => true

namespace Script

variable {α β : Type}

/-- The command that a script takes apart. -/
def toAction : Script α → Action Store α
  | done r => .lift r
  | call _ x next => x >>= fun a => (next a).toAction

/-- What is left of a script after the answer of a call. -/
def resume (next : β → Script α) : Result β → Script α
  | .ok a => next a
  | .error e => done (.error e)

/-- A call that takes nothing for granted. -/
def look (x : Action Store β) (next : β → Script α) : Script α := call (fun _ => true) x next

/-- A call that takes nothing for granted and must find something. -/
def require (x : Action Store (Option β)) (e : Failure) (next : β → Script α) : Script α :=
  look x fun
    | some a => next a
    | none => done (.error e)

/-- Two scripts take turns on a store until both are done. If `checked`, what a call takes for granted
holds of the tables when it is made. -/
inductive Interleaved (checked : Bool) : Script α → Script β → Store → Store → Prop
  | done {r : Result α} {r' : Result β} {s : Store} : Interleaved checked (.done r) (.done r') s s
  | left {γ : Type} {basis : Tables → Bool} {x : Action Store γ} {next : γ → Script α}
      {other : Script β} {r : Result γ} {s s' s'' : Store}
      (hbasis : checked = true → s.stored.grants basis = true) (hrun : x.run s = (r, s'))
      (hrest : Interleaved checked (resume next r) other s' s'') :
      Interleaved checked (.call basis x next) other s s''
  | right {γ : Type} {basis : Tables → Bool} {x : Action Store γ} {next : γ → Script β}
      {other : Script α} {r : Result γ} {s s' s'' : Store}
      (hbasis : checked = true → s.stored.grants basis = true) (hrun : x.run s = (r, s'))
      (hrest : Interleaved checked other (resume next r) s' s'') :
      Interleaved checked other (.call basis x next) s s''

/-- The store after two scripts have taken turns by a schedule, which says of each turn whether it is the
first script's. There is none if the schedule does not go with the scripts, or if `checked` and a call
is made when what it takes for granted does not hold. -/
def takeTurns (checked : Bool) : List Bool → Script α → Script β → Store → Option Store
  | [], .done _, .done _, s => some s
  | true :: turns, .call basis x next, other, s =>
    if checked && !s.stored.grants basis then none
    else takeTurns checked turns (resume next (x.run s).1) other (x.run s).2
  | false :: turns, other, .call basis x next, s =>
    if checked && !s.stored.grants basis then none
    else takeTurns checked turns other (resume next (x.run s).1) (x.run s).2
  | _, _, _, _ => none

theorem interleaved_of_takeTurns {checked : Bool} {turns : List Bool} {x : Script α} {y : Script β}
    {s s' : Store} (h : takeTurns checked turns x y s = some s') : Interleaved checked x y s s' := by
  have hgranted : ∀ {basis : Tables → Bool} {s : Store},
      ¬ (checked && !s.stored.grants basis) = true → checked = true →
        s.stored.grants basis = true := by
    intro basis s hrefused hchecked
    simpa [hchecked] using hrefused
  fun_induction takeTurns checked turns x y s with
  | case1 r r' s =>
    obtain rfl := Option.some.inj h
    exact .done
  | case3 turns γ basis x next other s hrefused ih => exact .left (hgranted hrefused) rfl (ih h)
  | case5 turns other γ basis x next s hrefused ih => exact .right (hgranted hrefused) rfl (ih h)
  -- the schedule does not go with the scripts, or a call is refused
  | case2 => cases h
  | case4 => cases h
  | case6 => cases h

theorem toAction_look (x : Action Store β) (next : β → Script α) :
    (look x next).toAction = x >>= fun a => (next a).toAction := rfl

theorem toAction_require (x : Action Store (Option β)) (e : Failure) (next : β → Script α) :
    (require x e next).toAction =
      (x >>= fun found => liftM (Result.ofOption e found)) >>= fun a => (next a).toAction := by
  rw [bind_assoc]
  refine bind_congr fun found => ?_
  cases found with
  | none => rfl
  | some a => rfl

end Script

end CourseBlueprint
