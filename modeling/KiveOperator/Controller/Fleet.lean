import KiveOperator.Controller.Belonging
import KiveOperator.Library.Runs

/-!
# Operators that end

The operator of a node is a process that may end at any moment, in the middle of its runs, and that
is started again.  Of the nodes with one kernel only the operator that holds the lease named by the
kernel runs the data reconciler.  When it ends, the kernel closes the program that it has loaded and
the map, and some operator gets the lease, whose own cache may show an earlier moment.

`act` says what an incident does to the operators, and the invariants of the runs without incidents
are kept by all of them.
-/

namespace Kive

open Interaction

/-- The program and its map are closed with the process that has loaded them. -/
def Kernel.unload (k : Kernel) : Kernel :=
  { k with
    loaded := false
    tracedInodes := ∅
    eq_empty := TracedInodes.eq_empty_of_unloaded }

namespace System

/-- The runs of a node are broken off. -/
def breakOff (s : System) (node : String) : System :=
  ((s.setPass (node, .kivePolicy) (.start (pure done))).setPass
    (node, .kivePod) (.start (pure done))).setPass (node, .kiveData) (.start (pure done))

/-- What is kept when one run is broken off. -/
lemma breakOff_induction {I : System → Prop}
    (hpass : ∀ s r, I s → I (s.setPass r (.start (pure done)))) {s : System} (hs : I s)
    (node : String) : I (s.breakOff node) :=
  hpass _ _ (hpass _ _ (hpass _ _ hs))

/-- The program of a kernel is closed. -/
def unload (s : System) (kernelID : String) : System :=
  s.moveTo (s.world.setKernel kernelID (s.world.kernels kernelID).unload)

end System

/-- The operators of the nodes. -/
structure Fleet where
  system : System
  /-- The node whose operator holds the lease of a kernel. -/
  leader : String → Option String

/-- What can happen to the operators. -/
inductive Incident where
  | act (a : Action)
  /-- The operator of a node ends, by itself or since it has not renewed its lease. -/
  | crash (node : String)
  /-- The operator of a node gets the lease of its kernel, its cache showing given moments. -/
  | elect (node : String) (kiveData kivePolicies : ℕ)

namespace Fleet

section Act

variable (std : Std) (podFields : PodFields) (kernelOf : String → String)

/-- The data reconciler is run where the lease is. -/
def Permits (f : Fleet) : Action → Prop
  | .start r => r.2 = .kiveData → f.leader (kernelOf r.1) = some r.1
  | _ => True

instance (f : Fleet) (a : Action) : Decidable (f.Permits kernelOf a) := by
  delta Permits
  induction a using Action.casesOn with
  | start r => exact inferInstanceAs (Decidable (_ → _))
  | _ => exact instDecidableTrue

/-- What an incident does.  One that is not possible does nothing. -/
def act (f : Fleet) : Incident → Fleet
  | .act a =>
    if f.Permits kernelOf a then
      { f with system := f.system.act std podFields kernelOf a }
    else f
  | .crash node =>
    let s := f.system.breakOff node
    if f.leader (kernelOf node) = some node then
      { system := s.unload (kernelOf node)
        leader := Function.update f.leader (kernelOf node) none }
    else { f with system := s }
  | .elect node n m =>
    match f.leader (kernelOf node), f.system.kiveDataPast[n]?, f.system.kivePoliciesPast[m]? with
    | none, some items, some policies =>
      { system := (f.system.seeKiveData (kernelOf node) n items).seeKivePolicies
          (kernelOf node) m policies
        leader := Function.update f.leader (kernelOf node) (some node) }
    | _, _, _ => f

/-- Incidents one after the other. -/
def run (incidents : List Incident) (f : Fleet) : Fleet :=
  Runs.run (act std podFields kernelOf) incidents f

/-- The operators before any of them holds a lease. -/
def ofWorld (w : World) : Fleet where
  system := .ofWorld w
  leader _ := none

/-- The incidents that are possible. -/
lemma act_cases (f : Fleet) (i : Incident) :
    (∃ a, i = .act a ∧ f.Permits kernelOf a ∧ f.act std podFields kernelOf i =
      { f with system := f.system.act std podFields kernelOf a }) ∨
    (∃ node, i = .crash node ∧ f.leader (kernelOf node) = some node ∧
      f.act std podFields kernelOf i =
        { system := (f.system.breakOff node).unload (kernelOf node)
          leader := Function.update f.leader (kernelOf node) none }) ∨
    (∃ node, i = .crash node ∧ f.leader (kernelOf node) ≠ some node ∧
      f.act std podFields kernelOf i = { f with system := f.system.breakOff node }) ∨
    (∃ node n m items policies, i = .elect node n m ∧ f.leader (kernelOf node) = none ∧
      f.system.kiveDataPast[n]? = some items ∧ f.act std podFields kernelOf i =
        { system := (f.system.seeKiveData (kernelOf node) n items).seeKivePolicies
            (kernelOf node) m policies
          leader := Function.update f.leader (kernelOf node) (some node) }) ∨
    f.act std podFields kernelOf i = f := by
  cases i with
  | act a =>
    by_cases ha : f.Permits kernelOf a
    · exact Or.inl ⟨a, rfl, ha, if_pos ha⟩
    · exact Or.inr (Or.inr (Or.inr (Or.inr (if_neg ha))))
  | crash node =>
    by_cases hleader : f.leader (kernelOf node) = some node
    · exact Or.inr (Or.inl ⟨node, rfl, hleader, if_pos hleader⟩)
    · exact Or.inr (Or.inr (Or.inl ⟨node, rfl, hleader, if_neg hleader⟩))
  | elect node n m =>
    rw [act]
    cases hleader : f.leader (kernelOf node) with
    | some other => exact Or.inr (Or.inr (Or.inr (Or.inr rfl)))
    | none =>
      cases hitems : f.system.kiveDataPast[n]? with
      | none => exact Or.inr (Or.inr (Or.inr (Or.inr rfl)))
      | some items =>
        cases hpolicies : f.system.kivePoliciesPast[m]? with
        | none => exact Or.inr (Or.inr (Or.inr (Or.inr rfl)))
        | some policies =>
          exact Or.inr (Or.inr (Or.inr (Or.inl
            ⟨node, n, m, items, policies, rfl, hleader, hitems, rfl⟩)))

end Act

end Fleet

/-! ## What incidents keep -/

namespace System

variable {std : Std} {owner kernelOf : String → String} {s : System}

/-- The runs that go on still keep to their calls when others are broken off. -/
lemma KeepsTo.breakOff (h : s.KeepsTo std kernelOf) (node : String) :
    (s.breakOff node).KeepsTo std kernelOf := by
  refine breakOff_induction (fun s r hs => ?_) h node
  have hidle : (pure done : CallProg Outcome).Obeys (PassCall std (kernelOf r.1) r.2)
      (fun _ _ => True) [] := trivial
  exact Obeying.setPass hs hidle

/-- Breaking off a run leaves all KiveData stamped. -/
lemma AllStamped.breakOff (h : s.AllStamped) (node : String) : (s.breakOff node).AllStamped :=
  breakOff_induction (fun _ _ hs => hs.setPass (fun d hd => absurd hd (not_listsKiveData_nil d))
    fun _ _ hcd => absurd hcd.1 List.not_mem_nil) h node

/-- Breaking off a run leaves the moments remembered. -/
lemma Remembers.breakOff (h : s.Remembers) (node : String) : (s.breakOff node).Remembers :=
  ⟨h.now, h.uid_lt, h.keeps, h.cached⟩

/-- Breaking off a run leaves the KiveData with their owners. -/
lemma AllBelong.breakOff (h : s.AllBelong owner kernelOf) (node : String) :
    (s.breakOff node).AllBelong owner kernelOf :=
  breakOff_induction (fun _ _ hs => hs.setPass fun _ _ hcd => absurd hcd.1 List.not_mem_nil) h node

/-- Closing a program touches no cache. -/
lemma caches_unload (s : System) (kernelID kernelID' : String) :
    ((s.world.setKernel kernelID (s.world.kernels kernelID).unload).kernels
        kernelID').cachedKiveData = (s.world.kernels kernelID').cachedKiveData := by
  rcases eq_or_ne kernelID' kernelID with rfl | hne
  · rw [World.setKernel_kernels_self]
    rfl
  · simp [World.setKernel, Function.update_of_ne hne]

/-- Unloading the program leaves all KiveData stamped. -/
lemma AllStamped.unload (h : s.AllStamped) (kernelID : String) : (s.unload kernelID).AllStamped :=
  h.moveTo h.stored (s.caches_unload kernelID)

/-- Unloading the program leaves the moments remembered. -/
lemma Remembers.unload (h : s.Remembers) (kernelID : String) : (s.unload kernelID).Remembers :=
  h.moveTo (Store.Grows.refl _) (s.caches_unload kernelID)

/-- Unloading the program leaves the KiveData with their owners. -/
lemma AllBelong.unload (h : s.AllBelong owner kernelOf) (kernelID : String) :
    (s.unload kernelID).AllBelong owner kernelOf :=
  h.moveTo h.hosts h.stored

/-- The cached KiveData after a cache shows a moment. -/
lemma cachedKiveData_see (s : System) (kernelID : String) (n m : ℕ) (items : List KiveData)
    (policies : List KivePolicy) (kernelID' : String) :
    (((s.seeKiveData kernelID n items).seeKivePolicies kernelID m policies).world.kernels
        kernelID').cachedKiveData =
      if kernelID' = kernelID then items else (s.world.kernels kernelID').cachedKiveData := by
  split_ifs with heq
  · simp [heq, seeKivePolicies, seeKiveData]
  · simp [seeKivePolicies, seeKiveData, World.setKernel, Function.update_of_ne heq]

/-- A cache that shows a past moment shows stamped KiveData. -/
lemma AllStamped.see (h : s.AllStamped) {kernelID : String} {n m : ℕ} {items : List KiveData}
    {policies : List KivePolicy} (hitems : s.kiveDataPast[n]? = some items) :
    ((s.seeKiveData kernelID n items).seeKivePolicies kernelID m policies).AllStamped := by
  refine ⟨h.stored, h.past, fun kernelID' d hd => ?_, h.listed, h.found⟩
  rw [cachedKiveData_see] at hd
  split_ifs at hd
  · exact h.past items (List.mem_of_getElem? hitems) d hd
  · exact h.cached kernelID' d hd

/-- A cache may show any moment that has been. -/
lemma Remembers.see (h : s.Remembers) {kernelID : String} {n m : ℕ} {items : List KiveData}
    {policies : List KivePolicy} (hitems : s.kiveDataPast[n]? = some items) :
    ((s.seeKiveData kernelID n items).seeKivePolicies kernelID m policies).Remembers := by
  refine ⟨h.now, h.uid_lt, h.keeps, fun kernelID' => ?_⟩
  rw [cachedKiveData_see]
  change s.kiveDataPast[Function.update s.kiveDataSeen kernelID n kernelID']? = _
  split_ifs with heq
  · rw [heq, Function.update_self, hitems]
  · rw [Function.update_of_ne heq]
    exact h.cached kernelID'

/-- What a cache shows changes no owner. -/
lemma AllBelong.see (h : s.AllBelong owner kernelOf) {kernelID : String} {n m : ℕ}
    {items : List KiveData} {policies : List KivePolicy} :
    ((s.seeKiveData kernelID n items).seeKivePolicies kernelID m policies).AllBelong owner
      kernelOf :=
  ⟨h.hosts, h.found, h.stored, h.past⟩

end System

/-- What an incident is about lies in the containers of its node. -/
def Incident.KnowsOwn (owner : String → String) : Incident → Prop
  | .act a => a.KnowsOwn owner
  | _ => True

namespace Fleet

/-- What holds of the runs of the operators, whatever happens to them. -/
structure Orderly (std : Std) (owner kernelOf : String → String) (f : Fleet) : Prop where
  keepsTo : f.system.KeepsTo std kernelOf
  stamped : f.system.AllStamped
  remembers : f.system.Remembers
  belong : f.system.AllBelong owner kernelOf

variable {std : Std} {podFields : PodFields} {owner kernelOf : String → String} {f : Fleet}

/-- The runs of a fresh cluster are orderly. -/
lemma orderly_ofWorld {w : World} (hw : w.Fresh)
    (hhosts : ∀ node, KnowsOwn owner node (w.hosts node)) :
    (ofWorld w).Orderly std owner kernelOf :=
  ⟨System.keepsTo_ofWorld w, System.allStamped_ofWorld hw, System.remembers_ofWorld hw,
    System.allBelong_ofWorld hw hhosts⟩

/-- Every incident keeps them so. -/
lemma Orderly.act (h : f.Orderly std owner kernelOf) {i : Incident} (hown : i.KnowsOwn owner) :
    (f.act std podFields kernelOf i).Orderly std owner kernelOf := by
  rcases act_cases std podFields kernelOf f i with
    ⟨a, rfl, -, heq⟩ | ⟨node, rfl, -, heq⟩ | ⟨node, rfl, -, heq⟩ |
    ⟨node, n, m, items, policies, rfl, -, hitems, heq⟩ | heq
  all_goals rw [heq]
  · exact ⟨System.keepsTo_act _ a h.keepsTo, h.stamped.act h.keepsTo a,
      System.remembers_act _ a h.remembers, h.belong.act h.keepsTo hown⟩
  · exact ⟨h.keepsTo.breakOff node, (h.stamped.breakOff node).unload _,
      (h.remembers.breakOff node).unload _, (h.belong.breakOff node).unload _⟩
  · exact ⟨h.keepsTo.breakOff node, h.stamped.breakOff node, h.remembers.breakOff node,
      h.belong.breakOff node⟩
  · exact ⟨h.keepsTo, h.stamped.see hitems, h.remembers.see hitems, h.belong.see⟩
  · exact h

end Fleet

end Kive
