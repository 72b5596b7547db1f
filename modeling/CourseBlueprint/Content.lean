import CourseBlueprint.Uuid

/-!
# Course content

A course holds content of ten kinds. One piece of content is named by its kind and an identifier,
its `ContentKey`; keys are ordered by kind and then by identifier.
-/

namespace CourseBlueprint

/-- The kinds of course content, in their order. -/
inductive Kind where
  | assignment
  | attachment
  | questionBank
  | calendarEvent
  | externalTool
  | discussionTopic
  | folder
  | lineItem
  | quiz
  | wikiPage
deriving DecidableEq, Repr, Inhabited

namespace Kind

/-- All kinds, in their order. -/
def all : List Kind :=
  [assignment, attachment, questionBank, calendarEvent, externalTool, discussionTopic, folder,
   lineItem, quiz, wikiPage]

/-- The name of a kind. -/
def name : Kind → String
  | assignment => "assignment"
  | attachment => "attachment"
  | questionBank => "assessment_question_bank"
  | calendarEvent => "calendar_event"
  | externalTool => "context_external_tool"
  | discussionTopic => "discussion_topic"
  | folder => "folder"
  | lineItem => "line_item"
  | quiz => "quiz"
  | wikiPage => "wiki_page"

instance : ToString Kind := ⟨name⟩

/-- The kind of a name. -/
def ofName? (text : String) : Option Kind := all.find? fun k => k.name = text

/-- The place of a kind in the order. -/
def rank (k : Kind) : Nat := k.ctorIdx

/-- The column that says whether content is active or deleted. -/
def stateColumn : Kind → String
  | attachment => "file_state"
  | _ => "workflow_state"

/-- Whether content of the kind can belong to a blueprint. Folders only hold other content. -/
def allowedInBlueprint : Kind → Bool
  | folder => false
  | _ => true

/-- Whether copies of the kind are left out when locks are looked up for many items at once. -/
def skipsPreload : Kind → Bool
  | folder => true
  | _ => false

theorem ofName?_name (k : Kind) : ofName? k.name = some k := by cases k <;> decide

theorem ofName?_eq_some {text : String} {k : Kind} : ofName? text = some k ↔ k.name = text := by
  constructor
  · intro h
    simpa using List.find?_some h
  · intro h
    rw [← h]
    exact k.ofName?_name

theorem name_inj {k k' : Kind} (h : k.name = k'.name) : k = k' :=
  Option.some.inj ((ofName?_eq_some.2 h).symm.trans k'.ofName?_name)

end Kind

/-- The name of one piece of content. -/
structure ContentKey where
  kind : Kind
  id : Uuid
deriving DecidableEq, Inhabited

namespace ContentKey

/-- The key as it is shown. -/
def text (k : ContentKey) : String := k.kind.name ++ " " ++ k.id.hyphenated

instance : ToString ContentKey := ⟨text⟩

/-- The key as one word, from which identifiers are derived. -/
def assetName (k : ContentKey) : String := k.kind.name ++ "_" ++ k.id.simple

/-- By kind, then by identifier. -/
def le (k l : ContentKey) : Bool :=
  k.kind.rank < l.kind.rank || (k.kind = l.kind && k.id.le l.id)

/-- The keys in order. -/
def sort (ks : List ContentKey) : List ContentKey := ks.mergeSort le

end ContentKey

end CourseBlueprint
