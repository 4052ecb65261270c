import AccessGroups.Proofs.Deploy.Course
import AccessGroups.Proofs.Deploy.Frame

/-!
Histories of a service. A service is worked on and edited from outside in any order; each deployment in
such a history keeps to the frame, whatever came before it and however it ends.
-/

set_option autoImplicit false

namespace AccessGroups.Deploy

namespace Plugin

/-- The service gets as far as emitting resources: it declares functions and groups that are accepted, and
all memberships are resolved. -/
def Clears (p : Plugin) (service : Value) : Prop :=
  ∃ functions groups, functionsOf service = .map functions ∧
    p.declaredGroups (accessOf service) = .ok groups ∧
    (resolve p.scheme groups (.map functions)).fault? = none

/-- What the deployment of a service keeps to. -/
structure Lawful (p : Plugin) (before : Linked) (run : Progress Deployment Fault) : Prop where
  /-- Nothing is touched unless the service gets as far as emitting, and then its resources only. -/
  framed : run.reached.service = before ∨
    p.Clears before.value ∧ ServiceGrown before.value run.reached.service.value
  idle : Idle before.value → run = .done ⟨before, [], []⟩
  undeclared : ∀ functions access, functionsOf before.value = .map functions →
    accessOf before.value = .map access → (Value.map access).member "groups" = .null →
    run = .stop ⟨before, [], []⟩ (.config .missingGroups)
  refused : ∀ functions fault, functionsOf before.value = .map functions →
    (accessOf before.value).member "groups" ≠ .null → p.settings.validateSchema = true →
    Schema.Access.validate (accessOf before.value) = .error fault →
    run = .stop ⟨before, [], []⟩ (.config fault)
  unresolved : ∀ functions groups fault, functionsOf before.value = .map functions →
    p.declaredGroups (accessOf before.value) = .ok groups →
    (resolve p.scheme groups (.map functions)).fault? = some fault →
    run = .stop ⟨before, (resolve p.scheme groups (.map functions)).reached.events, []⟩ fault
  /-- A block that the schema accepts is deployed alike with and without the check. -/
  unchecked : ∀ parsed checks, Schema.Access.validate (accessOf before.value) = .ok parsed →
    (p.withSchemaCheck checks).deploy before = run

theorem deploy_lawful (p : Plugin) (service : Linked) : p.Lawful service (p.deploy service) where
  framed := by
    have course := deploy_course p service
    generalize p.deploy service = run at course
    cases course with
    | idle => exact Or.inl rfl
    | halted events fault => exact Or.inl rfl
    | @emitted es functions groups resources stands declared given accepted resolved opened =>
      refine Or.inr ⟨⟨functions, groups, declared, accepted, resolved⟩, ?_⟩
      rw [stands, emitInto_value p _ _ opened]
      exact OpenResources.putBack_grown opened (emit_grown _ _ _)
  idle := by
    intro idle
    obtain ⟨value, links⟩ := service
    obtain ⟨es, rfl⟩ := idle.mapping
    unfold deploy
    simp only [Value.entries, Progress.ofExcept_mapError_ok, task?_of_idle idle]
  undeclared := by
    intro functions access declared block missing
    have given : accessOf service.value ≠ .null := by simp [block]
    obtain ⟨es, -, course⟩ := deploy_declared p declared given
    rw [course, block, declaredGroups_of_missing p missing]
    rfl
  refused := by
    intro functions fault declared given checks invalid
    have block : accessOf service.value ≠ .null := fun null => given (by rw [null]; rfl)
    obtain ⟨es, -, course⟩ := deploy_declared p declared block
    rw [course, declaredGroups_of_given p given, if_pos checks, invalid]
    rfl
  unresolved := by
    intro functions groups fault declared accepted failed
    have block : accessOf service.value ≠ .null := by
      intro null
      rw [null] at accepted
      cases accepted
    obtain ⟨es, -, course⟩ := deploy_declared p declared block
    rw [course, accepted]
    simp only [Progress.ofExcept, failed]
  unchecked := fun parsed checks accepted => deploy_withSchemaCheck p checks accepted

end Plugin

/-- What happens to a service: something is done with it, or it is changed from outside in any way. -/
inductive Turn where
  | act (action : Action)
  | change (edit : Linked → Linked)

/-- An action that deploys: the deployment itself or a call of the hook for it. -/
def Action.deploys : Action → Bool
  | .deploy => true
  | .hook name => Plugin.hooks.any fun hook => Value.same (.text hook) name
  | _ => false

namespace Plugin

/-- The deployments in a history of a service: each with the service before it and what it came to. -/
def deployments (p : Plugin) (service : Linked) :
    List Turn → List (Linked × Progress Deployment Fault)
  | [] => []
  | .act action :: rest =>
    let run := p.act service action
    let later := p.deployments run.reached.service rest
    if action.deploys then (service, run) :: later else later
  | .change edit :: rest => p.deployments (edit service) rest

theorem act_of_deploys (p : Plugin) (service : Linked) {action : Action}
    (deploys : action.deploys = true) : p.act service action = p.deploy service := by
  cases action with
  | deploy => rfl
  | hook name => exact if_pos deploys
  | _ => cases deploys

/-- Every deployment in any history of a service is lawful, whatever was done or edited before it and
however it ends. -/
theorem deployments_lawful (p : Plugin) (service : Linked) (turns : List Turn) :
    ∀ call ∈ p.deployments service turns, p.Lawful call.1 call.2 := by
  induction turns generalizing service with
  | nil =>
    intro call member
    cases member
  | cons turn rest ih =>
    cases turn with
    | change edit => exact ih (edit service)
    | act action =>
      simp only [deployments]
      split
      · rename_i deploys
        intro call member
        rcases List.mem_cons.mp member with rfl | member
        · rw [act_of_deploys p service deploys]
          exact deploy_lawful p service
        · exact ih _ call member
      · exact ih _

end Plugin

def withoutFunctions (service : Linked) : Linked :=
  match service.removeAt [.text "functions"] with
  | .ok edited => edited
  | .error _ => service

/-- The service once it has been deployed and its functions have been taken away. -/
def strippedService : Linked :=
  withoutFunctions (checkingPlugin.deploy declaredService).reached.service

/-- A service is deployed, its functions are taken away, and it is deployed again. -/
def redeployment : List Turn :=
  [.act .deploy, .change withoutFunctions, .act (.hook (.text deployHook))]

theorem Plugin.deployments_redeployment :
    checkingPlugin.deployments declaredService redeployment =
      [(declaredService, checkingPlugin.deploy declaredService),
        (strippedService, checkingPlugin.deploy strippedService)] := by
  have hook : (Action.hook (.text deployHook)).deploys = true := by decide
  simp only [redeployment, Plugin.deployments, act_of_deploys _ _ hook, hook, ↓reduceIte]
  rfl

theorem Plugin.deployments_lawful_redeployment :
    (checkingPlugin.deploy declaredService).fault?.isNone = true ∧
      checkingPlugin.Lawful declaredService (checkingPlugin.deploy declaredService) ∧
      checkingPlugin.Lawful strippedService (checkingPlugin.deploy strippedService) := by
  have lawful := deployments_lawful checkingPlugin declaredService redeployment
  rw [deployments_redeployment] at lawful
  exact ⟨rfl, lawful _ List.mem_cons_self, lawful _ (List.mem_cons_of_mem _ List.mem_cons_self)⟩

end AccessGroups.Deploy
