import Universal7420.Lib.Fallible
import Universal7420.Power.Loader

/-
  What each pass of the profile loader does to a record.

  Every lemma describes a successful pass by the members it
  changes and the members it keeps, so that later proofs never
  unfold the passes.

  Main declarations:
    * `Universal7420.Profiles.SettingLoaded`
    * `Universal7420.Profiles.switchPass_switch`
    * `Universal7420.Profiles.leafPass_leaf`
    * `Universal7420.Profiles.loadProfileImpl_cases`
    * `Universal7420.Profiles.loadProfilesImpl_record`
-/

------------------------------------------------------------
-- Texts Of A Document
------------------------------------------------------------

namespace Universal7420

namespace Profiles

open Xml Fallible

/- What is read: the content of the first match's first child. -/
def readAt
    (doc : Document)
    (path : List String) : Option String :=
  (doc.select path).head?.bind
    (fun node => node.children.head?.bind Node.content)

/- The text of the first match, which may be empty. -/
def textAt
    (doc : Document)
    (path : List String) : Option String :=
  (doc.select path).head?.map Node.ownText

/- Some node of the document lies on the path. -/
def HasMatch
    (doc : Document)
    (path : List String) : Prop :=
  doc.select path ≠ []

instance
    (doc : Document)
    (path : List String) :
    Decidable (HasMatch doc path) :=
  match h : doc.select path with
  | [] => isFalse (fun hMatch => hMatch h)
  | _ :: _ => isTrue (by simp [HasMatch, h])

/- A query that does not fault returns the text. -/
theorem xmlGet_eq_ok
    {doc : Document}
    {path : List String}
    {c : Option String}
    (hGet : xmlGet doc path = .ok c) :
    c = readAt doc path := by
  unfold xmlGet at hGet
  unfold readAt
  cases hSelect : doc.select path with
  | nil =>
      rw [hSelect] at hGet
      cases hGet
      rfl
  | cons node nodes =>
      rw [hSelect] at hGet
      cases hChildren : node.children with
      | nil =>
          simp [hChildren] at hGet
      | cons child children =>
          simp only [hChildren, Except.ok.injEq] at hGet
          simp [hChildren, hGet]

/- A path without a match has no text. -/
theorem readAt_eq_none_of_not_hasMatch
    {doc : Document}
    {path : List String}
    (hMatch : ¬ HasMatch doc path) :
    readAt doc path = none := by
  have hEmpty : doc.select path = [] := by
    simpa [HasMatch] using hMatch
  simp [readAt, hEmpty]

/- Every match has a text, and no other path has one. -/
theorem textAt_isSome_iff
    {doc : Document}
    {path : List String} :
    (textAt doc path).isSome = true ↔ HasMatch doc path := by
  unfold textAt HasMatch
  cases doc.select path with
  | nil => simp
  | cons node nodes => simp

end Profiles

end Universal7420

------------------------------------------------------------
-- One Member
------------------------------------------------------------

namespace Universal7420

namespace Profiles

open Xml Fallible

/-
  The member after a setting macro: the converted text if
  there is one, else the old member if it was set, else the
  converted default.
-/
def SettingLoaded
    (text : Option String)
    (k : Kind)
    (defaultText : String)
    (old new : Setting k.Val) : Prop :=
  match text with
  | some c =>
      k.convert c = .ok new.value ∧ new.set = true
  | none =>
      if old.set = true then
        new = old
      else
        k.convert defaultText = .ok new.value ∧
          new.set = false

theorem profileSetting_loaded
    {doc : Document}
    {path : List String}
    {k : Kind}
    {defaultText : String}
    {old new : Setting k.Val}
    (hSetting :
      profileSetting doc path k defaultText old =
        .ok new) :
    SettingLoaded (readAt doc path) k defaultText
      old new := by
  unfold profileSetting at hSetting
  rcases bind_eq_ok_iff.mp hSetting with
    ⟨text, hGet, hRest⟩
  rw [← xmlGet_eq_ok hGet]
  unfold SettingLoaded
  cases text with
  | some c =>
      rcases bind_eq_ok_iff.mp hRest with
        ⟨v, hConvert, hNew⟩
      cases hNew
      exact ⟨hConvert, rfl⟩
  | none =>
      cases hSet : old.set with
      | true =>
          simp only [hSet, if_true, pure_eq_ok_iff]
            at hRest
          simp [hRest]
      | false =>
          simp only [hSet, Bool.false_eq_true, if_false]
            at hRest
          rcases bind_eq_ok_iff.mp hRest with
            ⟨v, hConvert, hNew⟩
          cases hNew
          simpa using hConvert

/- A switch that was never set follows its own text. -/
theorem SettingLoaded.switch_value
    {text : Option String}
    {old new : Setting Bool}
    (hLoaded :
      SettingLoaded text .bool "false" old new)
    (hOld : old = ⟨false, false⟩) :
    new.value = text.any toBool := by
  subst hOld
  cases text with
  | some c =>
      have hValue : toBool c = new.value := by
        simpa [Kind.convert] using hLoaded.1
      simpa using hValue.symm
  | none =>
      have hDefault :
          toBool "false" = new.value ∧
            new.set = false := by
        simpa [SettingLoaded, Kind.convert] using hLoaded
      rw [← hDefault.1]
      decide

end Profiles

end Universal7420

------------------------------------------------------------
-- The Switch Pass
------------------------------------------------------------

namespace Universal7420

namespace Profiles

open Xml Fallible

/- Setting a switch changes that switch only. -/
theorem profileSetSwitch_eq_ok
    {doc : Document}
    {id : ProfileName}
    {p q : SecPowerProfile}
    {sw : Switch}
    (hSet : profileSetSwitch doc id p sw = .ok q) :
    ∃ v,
      SettingLoaded (readAt doc (id.path ++ sw.path))
        .bool "false" (p.switches sw) v ∧
      q.switches = Function.update p.switches sw v ∧
      q.leaves = p.leaves ∧
      q.governorData = p.governorData := by
  unfold profileSetSwitch at hSet
  rcases bind_eq_ok_iff.mp hSet with ⟨v, hValue, hNew⟩
  cases hNew
  exact ⟨v, profileSetting_loaded hValue, rfl, rfl, rfl⟩

/- A section line changes the section's own switch only. -/
theorem profileInit_eq_ok
    {doc : Document}
    {id : ProfileName}
    {p q : SecPowerProfile}
    {s : Section}
    (hInit : profileInit doc id p s = .ok q) :
    (∀ sw, sw ≠ .ofSection s →
      q.switches sw = p.switches sw) ∧
    (p.switches (.ofSection s) = ⟨false, false⟩ →
      q.on s =
        (xmlHasNode doc (id.path ++ s.path) &&
          (readAt doc
            (id.path ++
              (Switch.ofSection s).path)).any toBool)) ∧
    q.leaves = p.leaves ∧
    q.governorData = p.governorData := by
  unfold profileInit at hInit
  cases hNode : xmlHasNode doc (id.path ++ s.path) with
  | true =>
      simp only [hNode, if_true] at hInit
      rcases bind_eq_ok_iff.mp hInit with
        ⟨r, hSwitch, hNew⟩
      cases hNew
      rcases profileSetSwitch_eq_ok hSwitch with
        ⟨v, hValue, hSwitches, hLeaves, hGovernor⟩
      refine ⟨?_, ?_, hLeaves, hGovernor⟩
      · intro sw hNe
        simp [hSwitches, Function.update_of_ne hNe]
      · intro hOld
        rw [Bool.true_and, ← hValue.switch_value hOld]
        simp [SecPowerProfile.on, hSwitches]
  | false =>
      simp only [hNode, Bool.false_eq_true, if_false,
        pure_eq_ok_iff] at hInit
      subst hInit
      refine ⟨fun _ _ => rfl, ?_, rfl, rfl⟩
      intro hOld
      simp [SecPowerProfile.on, hOld]

/- Section lines leave the switches of other sections. -/
theorem profileInits_other
    {doc : Document}
    {id : ProfileName}
    {sections : List Section}
    {p q : SecPowerProfile}
    {sw : Switch}
    (hOther : ∀ s ∈ sections, sw ≠ .ofSection s)
    (hFold :
      sections.foldlM (profileInit doc id) p = .ok q) :
    q.switches sw = p.switches sw := by
  apply foldlM_preserves
    (fun r : SecPowerProfile => r.switches sw) _ hFold
  intro s hs r r' hInit
  exact (profileInit_eq_ok hInit).1 sw (hOther s hs)

/- Each listed section gets its switch from the document. -/
theorem profileInits_on
    {doc : Document}
    {id : ProfileName}
    {sections : List Section}
    (hNodup : sections.Nodup)
    {s : Section}
    (hMem : s ∈ sections)
    {p q : SecPowerProfile}
    (hOld : p.switches (.ofSection s) = ⟨false, false⟩)
    (hFold :
      sections.foldlM (profileInit doc id) p = .ok q) :
    q.on s =
      (xmlHasNode doc (id.path ++ s.path) &&
        (readAt doc
          (id.path ++
            (Switch.ofSection s).path)).any toBool) := by
  induction sections generalizing p with
  | nil =>
      cases hMem
  | cons a rest ih =>
      rcases foldlM_cons_eq_ok_iff.mp hFold with
        ⟨r, hFirst, hRest⟩
      rcases List.nodup_cons.mp hNodup with
        ⟨hFresh, hRestNodup⟩
      have hInit := profileInit_eq_ok hFirst
      by_cases hEq : s = a
      · subst hEq
        have hKeep :
            q.switches (.ofSection s) =
              r.switches (.ofSection s) := by
          apply profileInits_other _ hRest
          intro b hb hSame
          cases hSame
          exact hFresh hb
        rw [SecPowerProfile.on, hKeep]
        exact hInit.2.1 hOld
      · have hMemRest : s ∈ rest := by
          simpa [hEq] using hMem
        have hNe : Switch.ofSection s ≠ .ofSection a := by
          intro hSame
          exact hEq (Switch.ofSection.inj hSame)
        apply ih hRestNodup hMemRest _ hRest
        rw [hInit.1 _ hNe, hOld]

/-
  The value that the first pass gives to a switch: the own
  text, and for a section only if its first element is not
  empty.
-/
def firstPassSwitch
    (doc : Document)
    (id : ProfileName) :
    Switch → Bool
| .profile =>
    (readAt doc (id.path ++ Switch.profile.path)).any toBool
| .ofSection s =>
    xmlHasNode doc (id.path ++ s.path) &&
      (readAt doc
        (id.path ++ (Switch.ofSection s).path)).any toBool

theorem section_mem_initOrder
    (s : Section) :
    s ∈ Section.initOrder := by
  cases s with
  | cluster c => cases c <;> decide
  | cores c => cases c <;> decide
  | _ => decide

/- The first pass on a record that was never loaded. -/
theorem switchPass_switch
    {doc : Document}
    {id : ProfileName}
    {p q : SecPowerProfile}
    (hZero : p.switches = SecPowerProfile.zero.switches)
    (hPass : switchPass doc id p = .ok q)
    (sw : Switch) :
    (q.switches sw).value = firstPassSwitch doc id sw := by
  unfold switchPass at hPass
  rcases bind_eq_ok_iff.mp hPass with ⟨r, hOwn, hFold⟩
  rcases profileSetSwitch_eq_ok hOwn with
    ⟨v, hValue, hSwitches, _, _⟩
  cases sw with
  | profile =>
      have hKeep :
          q.switches .profile = r.switches .profile := by
        apply profileInits_other _ hFold
        intro s _ hSame
        cases hSame
      rw [hKeep, hSwitches, Function.update_self]
      exact hValue.switch_value (by rw [hZero]; rfl)
  | ofSection s =>
      apply profileInits_on (by decide)
        (section_mem_initOrder s) _ hFold
      rw [hSwitches, Function.update_of_ne (by simp),
        hZero]
      rfl

/- The first pass keeps the leaves and governor data. -/
theorem switchPass_keeps
    {doc : Document}
    {id : ProfileName}
    {p q : SecPowerProfile}
    (hPass : switchPass doc id p = .ok q) :
    (q.leaves, q.governorData) =
      (p.leaves, p.governorData) := by
  unfold switchPass at hPass
  rcases bind_eq_ok_iff.mp hPass with ⟨r, hOwn, hFold⟩
  rcases profileSetSwitch_eq_ok hOwn with
    ⟨_, _, _, hLeaves, hData⟩
  rw [← hLeaves, ← hData]
  apply foldlM_preserves
    (fun r : SecPowerProfile => (r.leaves, r.governorData))
    _ hFold
  intro s _ r r' hInit
  rcases profileInit_eq_ok hInit with
    ⟨_, _, hLeaves', hData'⟩
  rw [hLeaves', hData']

theorem switchPass_leaves
    {doc : Document}
    {id : ProfileName}
    {p q : SecPowerProfile}
    (hPass : switchPass doc id p = .ok q) :
    q.leaves = p.leaves :=
  congrArg Prod.fst (switchPass_keeps hPass)

theorem switchPass_governorData
    {doc : Document}
    {id : ProfileName}
    {p q : SecPowerProfile}
    (hPass : switchPass doc id p = .ok q) :
    q.governorData = p.governorData :=
  congrArg Prod.snd (switchPass_keeps hPass)

end Profiles

end Universal7420

------------------------------------------------------------
-- The Leaf Pass
------------------------------------------------------------

namespace Universal7420

namespace Profiles

open Xml Fallible

/- Copying governor data changes nothing else. -/
theorem xmlGetCpugov_eq_ok
    {doc : Document}
    {id : ProfileName}
    {p q : SecPowerProfile}
    {c : Cluster}
    (hGovernor : xmlGetCpugov doc id p c = .ok q) :
    q.switches = p.switches ∧ q.leaves = p.leaves := by
  unfold xmlGetCpugov at hGovernor
  cases hSelect :
      doc.select
        (id.path ++
          ["cpu", c.element, "governor_data"]) with
  | nil =>
      simp only [hSelect] at hGovernor
      cases hGovernor
      exact ⟨rfl, rfl⟩
  | cons node nodes =>
      simp only [hSelect] at hGovernor
      split at hGovernor
      · cases hGovernor
        exact ⟨rfl, rfl⟩
      · rcases bind_eq_ok_iff.mp hGovernor with
          ⟨⟨index, entries⟩, _, hRest⟩
        simp only at hRest
        split at hRest
        · cases hRest
          exact ⟨rfl, rfl⟩
        · cases hRest

/- Copying governor data terminates the list again. -/
theorem xmlGetCpugov_governorData
    {doc : Document}
    {id : ProfileName}
    {p q : SecPowerProfile}
    {c : Cluster}
    (hGovernor : xmlGetCpugov doc id p c = .ok q) :
    q.governorData = p.governorData ∨
      ∃ entries, ∃ index < governorDataSize,
        q.governorData =
          Function.update p.governorData c
            (Function.update entries index ("", "")) := by
  unfold xmlGetCpugov at hGovernor
  cases hSelect :
      doc.select
        (id.path ++
          ["cpu", c.element, "governor_data"]) with
  | nil =>
      simp only [hSelect] at hGovernor
      cases hGovernor
      exact Or.inl rfl
  | cons node nodes =>
      simp only [hSelect] at hGovernor
      split at hGovernor
      · cases hGovernor
        exact Or.inl rfl
      · rcases bind_eq_ok_iff.mp hGovernor with
          ⟨⟨index, entries⟩, _, hRest⟩
        simp only at hRest
        split at hRest
        · rename_i hRoom
          cases hRest
          exact Or.inr ⟨entries, index, hRoom, rfl⟩
        · cases hRest

/-
  A statement keeps the switches.  It loads the leaf that it
  names, if all enclosing sections are on, and no other leaf.
-/
theorem loadStmt_eq_ok
    {doc : Document}
    {id : ProfileName}
    {p q : SecPowerProfile}
    {stmt : LoadStmt}
    (hStmt : loadStmt doc id p stmt = .ok q) :
    q.switches = p.switches ∧
    (∀ l, stmt.action ≠ .set l →
      q.leaves l = p.leaves l) ∧
    (∀ l, stmt.action = .set l →
      stmt.guards.all p.on = true →
        SettingLoaded (readAt doc (id.path ++ l.path))
          l.kind l.defaultText
          (p.leaves l) (q.leaves l)) := by
  unfold loadStmt at hStmt
  split at hStmt
  · cases hAction : stmt.action with
    | set l =>
        simp only [hAction] at hStmt
        unfold profileSet at hStmt
        rcases bind_eq_ok_iff.mp hStmt with
          ⟨v, hValue, hNew⟩
        cases hNew
        refine ⟨rfl, ?_, ?_⟩
        · intro l' hNe
          have hOther : l' ≠ l := by
            intro hEq
            exact hNe (by rw [hEq])
          exact Function.update_of_ne hOther v p.leaves
        · intro l' hSame _
          cases hSame
          simp only [Function.update_self]
          exact profileSetting_loaded hValue
    | cpugov c =>
        simp only [hAction] at hStmt
        rcases xmlGetCpugov_eq_ok hStmt with
          ⟨hSwitches, hLeaves⟩
        refine ⟨hSwitches, ?_, ?_⟩
        · intro l _
          rw [hLeaves]
        · intro l hSame
          cases hSame
  · rename_i hOff
    cases hStmt
    refine ⟨rfl, fun _ _ => rfl, ?_⟩
    intro l _ hOn
    exact absurd hOn hOff

/- A block of statements keeps the switches. -/
theorem loadStmts_switches
    {doc : Document}
    {id : ProfileName}
    {stmts : List LoadStmt}
    {p q : SecPowerProfile}
    (hFold :
      stmts.foldlM (loadStmt doc id) p = .ok q) :
    q.switches = p.switches := by
  apply foldlM_preserves
    (fun r : SecPowerProfile => r.switches) _ hFold
  intro stmt _ r r' hStmt
  exact (loadStmt_eq_ok hStmt).1

/-
  What only one statement can change is left to it: the block
  keeps it before and after that statement.
-/
theorem loadStmts_once
    {doc : Document}
    {id : ProfileName}
    {γ : Type}
    (view : SecPowerProfile → γ)
    {action : LoadAction}
    (hOther :
      ∀ stmt p q, stmt.action ≠ action →
        loadStmt doc id p stmt = .ok q → view q = view p)
    {stmts : List LoadStmt}
    {guards : List Section}
    (hOnce :
      stmts.filter (fun stmt => stmt.action = action) =
        [⟨guards, action⟩])
    {p q : SecPowerProfile}
    (hFold :
      stmts.foldlM (loadStmt doc id) p = .ok q) :
    ∃ r r',
      view r = view p ∧ r.switches = p.switches ∧
        loadStmt doc id r ⟨guards, action⟩ = .ok r' ∧
        view q = view r' := by
  have hKept :
      ∀ stmt p q,
        decide (stmt.action = action) = false →
        loadStmt doc id p stmt = .ok q →
        (view q, q.switches) = (view p, p.switches) := by
    intro stmt p q hNamed hStmt
    rw [hOther stmt p q (by simpa using hNamed) hStmt,
      (loadStmt_eq_ok hStmt).1]
  rcases
    foldlM_once
      (fun r : SecPowerProfile => (view r, r.switches))
      hKept hOnce hFold with
    ⟨r, r', hBefore, hStmt, hAfter⟩
  exact
    ⟨r, r', congrArg Prod.fst hBefore,
      congrArg Prod.snd hBefore, hStmt,
      congrArg Prod.fst hAfter⟩

/- A leaf named by exactly one statement is loaded by it. -/
theorem loadStmts_leaf
    {doc : Document}
    {id : ProfileName}
    {stmts : List LoadStmt}
    {l : Leaf}
    {guards : List Section}
    (hOnce :
      stmts.filter (fun stmt => stmt.action = .set l) =
        [⟨guards, .set l⟩])
    {p q : SecPowerProfile}
    (hOn : guards.all p.on = true)
    (hFold :
      stmts.foldlM (loadStmt doc id) p = .ok q) :
    SettingLoaded (readAt doc (id.path ++ l.path))
      l.kind l.defaultText (p.leaves l) (q.leaves l) := by
  rcases loadStmts_once
      (fun r : SecPowerProfile => r.leaves l)
      (fun stmt _ _ hNe hStmt =>
        (loadStmt_eq_ok hStmt).2.1 l hNe)
      hOnce hFold with
    ⟨r, r', hBefore, hSwitches, hStmt, hAfter⟩
  rw [← hBefore, hAfter]
  apply (loadStmt_eq_ok hStmt).2.2 l rfl
  have hSame : r.on = p.on := by
    funext s
    simp [SecPowerProfile.on, hSwitches]
  rw [hSame]
  exact hOn

/- The script names every leaf once, below its sections. -/
theorem loadScript_filter
    (l : Leaf) :
    loadScript.filter (fun stmt => stmt.action = .set l) =
      [⟨l.sections, .set l⟩] := by
  cases l with
  | governor c => cases c <;> decide
  | freqMin c => cases c <;> decide
  | freqMax c => cases c <;> decide
  | freqHispeed c => cases c <;> decide
  | freqBoost c => cases c <;> decide
  | core1 c => cases c <;> decide
  | core2 c => cases c <;> decide
  | core3 c => cases c <;> decide
  | core4 c => cases c <;> decide
  | _ => decide

/- Other statements keep the governor data of a cluster. -/
theorem loadStmt_governorData
    {doc : Document}
    {id : ProfileName}
    {c : Cluster}
    {p q : SecPowerProfile}
    {stmt : LoadStmt}
    (hOther : stmt.action ≠ .cpugov c)
    (hStmt : loadStmt doc id p stmt = .ok q) :
    q.governorData c = p.governorData c := by
  unfold loadStmt at hStmt
  split at hStmt
  · cases hAction : stmt.action with
    | set l =>
        simp only [hAction] at hStmt
        rcases bind_eq_ok_iff.mp hStmt with ⟨v, _, hNew⟩
        cases hNew
        rfl
    | cpugov c' =>
        have hNe : c ≠ c' := by
          intro hEq
          exact hOther (by rw [hAction, hEq])
        simp only [hAction] at hStmt
        rcases xmlGetCpugov_governorData hStmt with
          hSame | ⟨entries, index, _, hNew⟩
        · rw [hSame]
        · rw [hNew, Function.update_of_ne hNe]
  · cases hStmt
    rfl

/- The script copies the governor data of a cluster once. -/
theorem loadScript_filter_cpugov
    (c : Cluster) :
    loadScript.filter
        (fun stmt => stmt.action = .cpugov c) =
      [⟨[.cpu, .cluster c], .cpugov c⟩] := by
  cases c with
  | apollo => decide
  | atlas => decide

/- The leaf pass copies the governor data of a cluster. -/
theorem leafPass_cpugov
    {doc : Document}
    {id : ProfileName}
    {c : Cluster}
    {p q : SecPowerProfile}
    (hPass :
      loadScript.foldlM (loadStmt doc id) p = .ok q)
    (hCpu : p.on .cpu = true)
    (hCluster : p.on (.cluster c) = true) :
    ∃ r r',
      r.governorData c = p.governorData c ∧
        xmlGetCpugov doc id r c = .ok r' ∧
        q.governorData c = r'.governorData c := by
  rcases loadStmts_once
      (fun r : SecPowerProfile => r.governorData c)
      (fun _ _ _ => loadStmt_governorData)
      (loadScript_filter_cpugov c) hPass with
    ⟨r, r', hBefore, hSwitches, hStmt, hAfter⟩
  refine ⟨r, r', hBefore, ?_, hAfter⟩
  have hOn : [Section.cpu, .cluster c].all r.on = true := by
    have hSame : r.on = p.on := by
      funext s
      simp [SecPowerProfile.on, hSwitches]
    simp [hSame, hCpu, hCluster]
  rw [loadStmt, if_pos hOn] at hStmt
  exact hStmt

/- The leaf pass loads every leaf of the enabled sections. -/
theorem leafPass_leaf
    {doc : Document}
    {id : ProfileName}
    {p q : SecPowerProfile}
    (hPass :
      loadScript.foldlM (loadStmt doc id) p = .ok q)
    {l : Leaf}
    (hOn : ∀ s ∈ l.sections, p.on s = true) :
    SettingLoaded (readAt doc (id.path ++ l.path))
      l.kind l.defaultText (p.leaves l) (q.leaves l) :=
  loadStmts_leaf (loadScript_filter l)
    (List.all_eq_true.mpr hOn) hPass

end Profiles

end Universal7420

------------------------------------------------------------
-- One Profile
------------------------------------------------------------

namespace Universal7420

namespace Profiles

open Xml Fallible

/-
  A profile that is switched off by its own text ends after
  the first pass; any other one goes through all three.
-/
theorem loadProfileImpl_cases
    {doc : Document}
    {store : Store}
    {id : ProfileName}
    {q : SecPowerProfile}
    (hLoad : loadProfileImpl doc store id = .ok q) :
    ∃ p, switchPass doc id (store id) = .ok p ∧
      ((p.enabled = false ∧ q = p) ∨
        (p.enabled = true ∧
          ∃ r, inheritParent doc store id p = .ok r ∧
            loadScript.foldlM (loadStmt doc id) r =
              .ok q)) := by
  unfold loadProfileImpl at hLoad
  rcases bind_eq_ok_iff.mp hLoad with ⟨p, hPass, hRest⟩
  refine ⟨p, hPass, ?_⟩
  cases hEnabled : p.enabled with
  | true =>
      simp only [hEnabled, if_true] at hRest
      rcases bind_eq_ok_iff.mp hRest with
        ⟨r, hParent, hLeaves⟩
      exact Or.inr ⟨rfl, r, hParent, hLeaves⟩
  | false =>
      simp only [hEnabled, Bool.false_eq_true, if_false,
        pure_eq_ok_iff] at hRest
      exact Or.inl ⟨rfl, hRest.symm⟩

/- Without an `extends` attribute nothing is copied. -/
theorem inheritParent_none
    {doc : Document}
    {store : Store}
    {id : ProfileName}
    {p r : SecPowerProfile}
    (hExtends : extendsOf doc id = none)
    (hParent : inheritParent doc store id p = .ok r) :
    r = p := by
  simp only [inheritParent, hExtends,
    Except.ok.injEq] at hParent
  exact hParent.symm

/- A parent other than the profile itself is copied whole. -/
theorem inheritParent_some
    {doc : Document}
    {store : Store}
    {id parent : ProfileName}
    {name : String}
    {p r : SecPowerProfile}
    (hExtends : extendsOf doc id = some name)
    (hName : ProfileName.ofElement? name = some parent)
    (hNe : parent ≠ id)
    (hParent : inheritParent doc store id p = .ok r) :
    r = store parent := by
  simp only [inheritParent, hExtends, hName,
    Except.ok.injEq, Function.update_of_ne hNe] at hParent
  exact hParent.symm

end Profiles

end Universal7420

------------------------------------------------------------
-- All Profiles
------------------------------------------------------------

namespace Universal7420

namespace Profiles

open Xml Fallible

/- Loading some profiles keeps all other records. -/
theorem loadIntos_other
    {doc : Document}
    {order : List ProfileName}
    {q : ProfileName}
    (hOther : q ∉ order)
    {store ps : Store}
    (hFold : order.foldlM (loadInto doc) store = .ok ps) :
    ps q = store q := by
  apply foldlM_preserves
    (fun st : Store => st q) _ hFold
  intro id hMem st st' hLoad
  unfold loadInto at hLoad
  rcases bind_eq_ok_iff.mp hLoad with ⟨p, _, hNew⟩
  cases hNew
  apply Function.update_of_ne
  intro hEq
  exact hOther (hEq ▸ hMem)

/-
  In an order of increasing rank, each record is the result
  of one load, made when the record itself was untouched and
  all records of lower rank were final.
-/
theorem loadIntos_record
    {doc : Document}
    {order : List ProfileName}
    (hOrder : order.Pairwise (fun a b => a.rank < b.rank))
    {store ps : Store}
    (hFold : order.foldlM (loadInto doc) store = .ok ps)
    {id : ProfileName}
    (hMem : id ∈ order) :
    ∃ st, loadProfileImpl doc st id = .ok (ps id) ∧
      st id = store id ∧
      ∀ q, (q ∈ order → q.rank < id.rank) →
        st q = ps q := by
  induction order generalizing store with
  | nil =>
      cases hMem
  | cons a rest ih =>
      rcases foldlM_cons_eq_ok_iff.mp hFold with
        ⟨next, hFirst, hRest⟩
      rcases List.pairwise_cons.mp hOrder with
        ⟨hLater, hRestOrder⟩
      unfold loadInto at hFirst
      rcases bind_eq_ok_iff.mp hFirst with ⟨p, hLoad, hNew⟩
      cases hNew
      by_cases hEq : id = a
      · subst hEq
        have hFresh : id ∉ rest := by
          intro hIn
          exact Nat.lt_irrefl _ (hLater id hIn)
        have hFinal : ps id = p := by
          rw [loadIntos_other hFresh hRest,
            Function.update_self]
        refine ⟨store, by rw [hFinal]; exact hLoad, rfl, ?_⟩
        intro q hLower
        have hNe : q ≠ id := by
          intro hSame
          subst hSame
          exact Nat.lt_irrefl _ (hLower (by simp))
        have hNotIn : q ∉ rest := by
          intro hIn
          have hUp := hLater q hIn
          have hDown := hLower (by simp [hIn])
          omega
        rw [loadIntos_other hNotIn hRest,
          Function.update_of_ne hNe]
      · have hIn : id ∈ rest := by
          simpa [hEq] using hMem
        rcases ih hRestOrder hRest hIn with
          ⟨st, hRecord, hOld, hFinal⟩
        refine ⟨st, hRecord, ?_, ?_⟩
        · rw [hOld, Function.update_of_ne hEq]
        · intro q hLower
          apply hFinal
          intro hq
          exact hLower (by simp [hq])

theorem mem_loadOrder
    (id : ProfileName) :
    id ∈ ProfileName.loadOrder := by
  cases id <;> decide

/- How the final record of each profile came about. -/
theorem loadProfilesImpl_record
    {doc : Document}
    {ps : Store}
    (hLoad : loadProfilesImpl doc = .ok ps)
    (id : ProfileName) :
    ∃ store, loadProfileImpl doc store id = .ok (ps id) ∧
      store id = SecPowerProfile.zero ∧
      ∀ q, q.rank < id.rank → store q = ps q := by
  rcases loadIntos_record (by decide) hLoad
      (mem_loadOrder id) with
    ⟨store, hRecord, hZero, hFinal⟩
  exact ⟨store, hRecord, hZero,
    fun q hLower => hFinal q (fun _ => hLower)⟩

end Profiles

end Universal7420
