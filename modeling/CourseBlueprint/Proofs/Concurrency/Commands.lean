import CourseBlueprint.Proofs.Command.Idempotence
import CourseBlueprint.Proofs.Concurrency.Script
import CourseBlueprint.Proofs.Save.Importing

/-!
# Locking and syncing, call by call

Locking, unlocking and syncing as scripts (`Task.script`), each call of which is one of the operations
that a store offers. A script run alone is the command (`Task.toAction_script`). Three of the calls
write what follows from an earlier look-up: the locks that were found are saved with some of them set,
and a master tag or a copy that was not found is made.
-/

namespace CourseBlueprint

/-! ## The import of a copy -/

namespace Rulebook

/-- What an import of a copy answers, by the tag of the copy. -/
def imported (b : Rulebook) (m : Migration) (i : Item) (tag : ChildTag) : SaveReport × Item :=
  if tag.changes.isEmpty then (⟨.unrestricted, .noOverlap, none⟩, i.changesApplied)
  else (⟨.unrestricted, (b.planIn m tag i).outcome, none⟩,
    ((i.withLocks (i.locksIn m)).restore (b.planIn m tag i).takeBack).changesApplied)

end Rulebook

namespace Command

variable {b : Rulebook} {m : Migration} {i : Item}

/-- A command imports a copy as an import does, with nothing to write it to. -/
theorem saveImported_eq_importOne (b : Rulebook) (m : Migration) (i : Item) :
    saveImported b m i = (do
      let e ← b.importOne .noop m i
      match e.outcome with
      | .saved report => return (report, e.item)
      | .rejected r => .fail (.importRejected r.columns)) := by
  rw [saveImported, Rulebook.importOne, bind_assoc]
  exact bind_congr fun e => (pure_bind _ _).symm

/-- The import of a copy that is there finds its tag, and removes from it what is to be forgotten. -/
theorem saveImported_eq (hnew : i.isNew = false) (hcopy : b.isCopy i = true) :
    saveImported b m i = (do
      let tag ← Store.findOrCreateChildTag m.subscription.id i.key i.migrationId
      Rulebook.forget tag (b.planIn m tag i)
      return b.imported m i tag) := by
  rw [saveImported_eq_importOne, Rulebook.importOne_of_not_isNew hnew, Rulebook.fetchTag,
    if_pos hcopy, bind_assoc]
  refine bind_congr fun tag => ?_
  cases hclean : tag.changes.isEmpty with
  | true =>
    have hidle : (i.isNew || tag.changes.isEmpty) = true := by rw [hclean, Bool.or_true]
    obtain ⟨hforget, -⟩ := Rulebook.Reconciled.planIn_of_clean (b := b) (m := m) hclean i
    rw [Rulebook.imported, if_pos hclean, Rulebook.importPlan_of_idle hidle,
      Rulebook.ending_of_idle hidle, Rulebook.forget, Rulebook.forget, NameSet.isEmpty_iff.2 hforget]
    rfl
  | false =>
    rw [Rulebook.importPlan_of_recorded hnew hclean, bind_assoc]
    refine bind_congr fun _ => ?_
    rw [Rulebook.imported, hclean, Rulebook.ending, Rulebook.importPlan_of_recorded hnew hclean,
      Rulebook.importedItem_of_recorded hnew hclean]
    rfl

/-- The import of a new copy does nothing but make a tag for it. -/
theorem saveImported_new (hnew : i.isNew = true) (hcopy : b.isCopy i = true) :
    saveImported b m i = (do
      let _ ← Store.findOrCreateChildTag m.subscription.id i.key i.migrationId
      return (⟨.unrestricted, .noOverlap, none⟩, i.changesApplied)) := by
  have hwritten : (liftM (Persist.noop i) : Action Store Unit) = pure () := rfl
  rw [saveImported_eq_importOne, Rulebook.importOne_of_isNew hnew, Rulebook.fetchTag, if_pos hcopy,
    hwritten, pure_bind, bind_assoc]
  rfl

end Command

/-! ## Scripts -/

/-- The master tag that tables have under a migration identifier. -/
def Tables.masterTag? (ts : Tables) (id : String) : Option MasterTag :=
  ts.masterTags.find? fun t => t.migrationId = id

/-- A command that deals with the master tag or the copies of a piece of blueprint content. -/
inductive Task where
  | setLocks (course : Uuid) (content : ContentKey) (locks : List Lock) (on : Bool)
  | sync (subscription : Uuid) (content : ContentKey) (assignments : List Assignment)

namespace Task

/-- The content that a command is about. -/
def content : Task → ContentKey
  | setLocks _ content _ _ => content
  | sync _ content _ => content

/-- The command. -/
def act (b : Rulebook) : Task → Action Store Report
  | setLocks course content locks on => Command.setLocks b course content locks on
  | sync subscription content assignments => Command.sync b subscription content assignments

/-! ### Setting locks -/

/-- The restrictions with locks set or unset. -/
def setAll (locks : List Lock) (on : Bool) (r : Restrictions) : Restrictions :=
  locks.foldl (fun r l => r.set l on) r

/-- The master tag that was found, or a new one. -/
def foundOrNew (t : Template) (content : ContentKey) (id : String) :
    Option MasterTag → Action Store MasterTag
  | some tag => pure tag
  | none => Store.newMasterTag t content id

/-- Sets locks of a master tag that was found, or of a new one, and saves it. -/
def saveLocks (t : Template) (content : ContentKey) (id : String) (locks : List Lock) (on : Bool)
    (found : Option MasterTag) : Action Store MasterTag := do
  let old ← foundOrNew t content id found
  let time ← Store.now
  let tag := { old with restrictions := setAll locks on old.restrictions, updatedAt := time }
  Store.saveMasterTag tag
  return tag

/-- What setting locks answers. -/
def locksReport (b : Rulebook) (content : ContentKey) (locks : List Lock) (on : Bool)
    (tag : MasterTag) : Report :=
  Report.say { masterTags := [tag], messages :=
    locks.filterMap (Command.lockWarning? (b.registry content.kind) content.kind) } .success
    ((if on then "Locked " else "Unlocked ") ++ Text.join (locks.map Lock.name) ++ " on " ++
      content.text)

/-- Looks up the master tag of content, and saves it with other locks. -/
def scriptSetLocks (b : Rulebook) (course : Uuid) (content : ContentKey) (locks : List Lock)
    (on : Bool) : Script Report :=
  if locks.isEmpty then .done (.error .noLockNamed)
  else if !content.kind.allowedInBlueprint then .done (.error (.notLockable content.kind))
  else
    .require (Store.templateOf? course) (.noTemplateOf course) fun t =>
    let id := t.migrationId b.settings.marker content
    .look (Store.masterTag? id) fun found =>
    .call (fun ts => decide (ts.masterTag? id = found)) (saveLocks t content id locks on found) fun tag =>
    .done (.ok (locksReport b content locks on tag))

/-! ### Syncing -/

/-- Makes a master tag and saves it. -/
def saveNewTag (t : Template) (content : ContentKey) (id : String) : Action Store MasterTag := do
  let tag ← Store.newMasterTag t content id
  Store.saveMasterTag tag
  return tag

/-- Makes a copy of some kind, with its child tag. -/
def makeCopy (subscription : Uuid) (kind : Kind) (id : String) : Action Store ContentKey := do
  let key : ContentKey := ⟨kind, ← Store.newId⟩
  let _ ← Store.findOrCreateChildTag subscription key (some id)
  return key

/-- Looks for a copy of content under a migration identifier and for the locks, and makes a copy, or
removes from the tag of the one that was found what the locks overrule. If they overrule nothing, that
turn leaves the store alone. -/
def scriptBring (b : Rulebook) (s : Subscription) (content : ContentKey) (id : String)
    (assignments : List Assignment) (masterTag : MasterTag) : Script Report :=
  .look (Store.childTagsOf s.id) fun tags =>
  .look (Migration.load s) fun m =>
  match tags.find? fun tag => tag.migrationId = some id with
  | none =>
    .call (fun ts =>
        decide (∀ c ∈ ts.childTags, c.subscriptionId = s.id → c.migrationId ≠ some id))
      (makeCopy m.subscription.id content.kind id) fun key =>
    .require (Store.childTag? key) (.untracked key) fun tag =>
    .done (.ok (Report.say { masterTags := [masterTag], childTags := [tag] } .success
      ("Synced " ++ content.text ++ " to course " ++ s.childCourseId.hyphenated ++ " as " ++
        tag.content.text)))
  | some existing =>
    let wanted := Command.copyWanted existing assignments
    .look (Store.findOrCreateChildTag m.subscription.id existing.content existing.migrationId)
      fun found =>
    .look (Rulebook.forget found (b.planIn m found wanted)) fun _ =>
    .require (Store.childTag? existing.content) (.untracked existing.content) fun tag =>
    let (report, saved) := b.imported m wanted found
    let kept := Command.keptColumns (Command.requestedColumns existing assignments) saved
    let target := existing.content.text ++ " in course " ++ s.childCourseId.hyphenated
    .done (.ok { masterTags := [masterTag], childTags := [tag], save := some report,
                 messages := [Command.resyncMessage target kept report.reconciliation] })

/-- Looks up the master tag of content or makes one, and brings the content to a subscription. -/
def scriptSync (b : Rulebook) (subscription : Uuid) (content : ContentKey)
    (assignments : List Assignment) : Script Report :=
  if !content.kind.allowedInBlueprint then .done (.error (.notSynced content.kind))
  else
    .require (Store.subscription? subscription) (.noSubscription subscription) fun s =>
    .require (Store.template? s.templateId) (.noTemplate s.templateId) fun t =>
    let id := t.migrationId b.settings.marker content
    .look (Store.masterTag? id) fun
      | some tag => scriptBring b s content id assignments tag
      | none =>
        .call (fun ts => decide (ts.masterTag? id = none)) (saveNewTag t content id)
          (scriptBring b s content id assignments)

/-- A command, call by call. -/
def script (b : Rulebook) : Task → Script Report
  | setLocks course content locks on => scriptSetLocks b course content locks on
  | sync subscription content assignments => scriptSync b subscription content assignments

/-! ### Scripts that run alone -/

theorem toAction_scriptSetLocks (b : Rulebook) (course : Uuid) (content : ContentKey)
    (locks : List Lock) (on : Bool) :
    (scriptSetLocks b course content locks on).toAction =
      Command.setLocks b course content locks on := by
  unfold scriptSetLocks Command.setLocks
  split
  · rfl
  · split
    · rfl
    · rw [Script.toAction_require]
      refine bind_congr fun t => ?_
      simp only [Script.toAction_look, Script.toAction, Command.masterTagOrNew, saveLocks,
        bind_assoc]
      refine bind_congr fun found => ?_
      cases found with
      | none =>
        simp only [pure_bind]
        rfl
      | some old =>
        simp only [pure_bind]
        rfl

/-- A copy is made by one call, and looked up by another. -/
theorem createCopy_eq (b : Rulebook) (m : Migration) (kind : Kind) {id : String}
    (hmarks : b.settings.marks id = true) (assignments : List Assignment) :
    Command.createCopy b m kind id assignments =
      makeCopy m.subscription.id kind id >>= Command.savedTag := by
  unfold Command.createCopy makeCopy
  simp only [bind_assoc, pure_bind]
  refine bind_congr fun key => ?_
  obtain ⟨attributes, pending, hcopy⟩ := Command.newCopy_frame ⟨kind, key⟩ id assignments
  rw [hcopy, Command.saveImported_new rfl (by exact hmarks), bind_assoc]
  rfl

theorem toAction_scriptBring {b : Rulebook} {s : Subscription} {content : ContentKey} {id : String}
    (hmarks : b.settings.marks id = true) (assignments : List Assignment) (masterTag : MasterTag) :
    (scriptBring b s content id assignments masterTag).toAction = (do
      let existing := (← Store.childTagsOf s.id).find? fun tag => tag.migrationId = some id
      let m ← Migration.load s
      match existing with
      | none =>
        let tag ← Command.createCopy b m content.kind id assignments
        return Report.say { masterTags := [masterTag], childTags := [tag] } .success
          ("Synced " ++ content.text ++ " to course " ++ s.childCourseId.hyphenated ++ " as " ++
            tag.content.text)
      | some existing =>
        let (report, saved) ← Command.saveImported b m (Command.copyWanted existing assignments)
        let kept := Command.keptColumns (Command.requestedColumns existing assignments) saved
        let target := existing.content.text ++ " in course " ++ s.childCourseId.hyphenated
        let tag ← Command.savedTag existing.content
        return { masterTags := [masterTag], childTags := [tag], save := some report,
                 messages := [Command.resyncMessage target kept report.reconciliation] }) := by
  refine bind_congr fun tags => bind_congr fun m => ?_
  cases hfound : tags.find? fun tag => tag.migrationId = some id with
  | none =>
    simp only [Script.toAction, createCopy_eq b m content.kind hmarks, Command.savedTag, bind_assoc,
      Script.toAction_require]
    rfl
  | some existing =>
    have hid : existing.migrationId = some id := by simpa using List.find?_some hfound
    simp only [Script.toAction_look, Script.toAction_require]
    rw [Command.saveImported_eq (Command.isNew_copyWanted existing assignments)
      (Command.isCopy_copyWanted assignments hid hmarks), Command.key_copyWanted]
    simp only [bind_assoc, pure_bind, Command.savedTag]
    have hkey : (Command.copyWanted existing assignments).migrationId = existing.migrationId := by
      obtain ⟨attributes, pending, hitem⟩ := Command.copyWanted_frame existing assignments
      rw [hitem]
    rw [hkey]
    rfl

theorem toAction_scriptSync (b : Rulebook) (subscription : Uuid) (content : ContentKey)
    (assignments : List Assignment) :
    (scriptSync b subscription content assignments).toAction =
      Command.sync b subscription content assignments := by
  unfold scriptSync Command.sync
  split
  · rfl
  · rw [Script.toAction_require]
    refine bind_congr fun s => ?_
    rw [Script.toAction_require]
    refine bind_congr fun t => ?_
    have hmarks := b.settings.marks_migrationId t content
    simp only [Command.trackedMasterTag, bind_assoc]
    refine bind_congr fun found => ?_
    cases found with
    | none =>
      simp only [Script.toAction, saveNewTag, bind_assoc, pure_bind]
      exact bind_congr fun tag => bind_congr fun _ => toAction_scriptBring hmarks assignments tag
    | some tag => exact toAction_scriptBring hmarks assignments tag

/-- A script that runs alone is the command. -/
theorem toAction_script (b : Rulebook) (task : Task) : (task.script b).toAction = task.act b := by
  cases task with
  | setLocks course content locks on => exact toAction_scriptSetLocks b course content locks on
  | sync subscription content assignments =>
    exact toAction_scriptSync b subscription content assignments

end Task

end CourseBlueprint
