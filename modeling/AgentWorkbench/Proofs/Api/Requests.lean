import AgentWorkbench.Api.Router

/-!
Requests over HTTP by what they ask of the store. A request that asks nothing leaves the store alone
and has one response whatever is stored; any other gets its answer with the status that belongs to
it. Where a store is asked, the playground is the one that the path names.
-/
namespace AgentWorkbench

/-- Files that a request writes, for a sheet that is there or for a new one. -/
structure WrittenFiles where
  sheet : SheetId
  files : List SourceFile
  created : Bool

namespace SheetRequest

def playground : SheetRequest → PlaygroundId
  | list playground | create playground _ _ | get playground _ | replaceFiles playground _ _
  | listRuns playground _ => playground

/-- What the request writes if it is accepted. -/
def writes? (fresh : SheetId) : SheetRequest → Option WrittenFiles
  | create _ _ files => some { sheet := fresh, files, created := true }
  | replaceFiles _ sheet files => some { sheet, files, created := false }
  | _ => none

def creates : SheetRequest → Bool
  | create .. => true
  | _ => false

end SheetRequest

def Route.playground? : Route → Option (List Char)
  | sheets playground | sheet playground _ | files playground _ | runs playground _ =>
    some playground
  | root | terminal => none

namespace HttpRequest

def route? (r : HttpRequest) : Option Route := (Target.path? r.target).bind Route.ofPath?

/-- The playground that the path names. -/
def playground? (r : HttpRequest) : Option PlaygroundId :=
  (r.route?.bind Route.playground?).bind fun text =>
    (Target.decodeParameter? text).map PlaygroundId.mk

/-- What the request asks of the store. -/
def asked? (r : HttpRequest) : Option SheetRequest :=
  r.route?.bind fun route =>
    if r.method ≠ "OPTIONS" ∧ route.methods.contains r.method then
      (r.sheetRequest? route).toOption.join
    else none

variable {r : HttpRequest} {request : SheetRequest}

theorem parameter_eq_ok {cs : List Char} {text : String} (read : parameter cs = .ok text) :
    Target.decodeParameter? cs = some text := by
  rw [parameter] at read
  split at read
  · next decoded => cases read; exact decoded
  · cases read

theorem bind_eq_ok {ε α β : Type} {x : Except ε α} {f : α → Except ε β} {b : β}
    (done : x >>= f = .ok b) : ∃ a, x = .ok a ∧ f a = .ok b := by
  cases x with
  | error e => cases done
  | ok a => exact ⟨a, rfl, done⟩

theorem sheetRequest?_playground {route : Route}
    (made : r.sheetRequest? route = .ok (some request)) :
    (route.playground?.bind fun text => (Target.decodeParameter? text).map PlaygroundId.mk) =
      some request.playground := by
  have named {cs : List Char} {text : String} (read : parameter cs = .ok text)
      (same : request.playground = ⟨text⟩) :
      ((some cs).bind fun text => (Target.decodeParameter? text).map PlaygroundId.mk) =
        some request.playground := by
    rw [Option.bind_some, parameter_eq_ok read, same]
    rfl
  cases route with
  | root | terminal => cases made
  | sheets playground =>
      obtain ⟨text, read, made⟩ := bind_eq_ok made
      refine named read ?_
      by_cases posted : r.method = "POST"
      · rw [if_pos posted] at made
        obtain ⟨⟨title, files⟩, -, made⟩ := bind_eq_ok made
        cases made
        rfl
      · rw [if_neg posted] at made
        cases made
        rfl
  | sheet playground sheet | runs playground sheet =>
      obtain ⟨text, read, made⟩ := bind_eq_ok made
      obtain ⟨id, -, made⟩ := bind_eq_ok made
      cases made
      exact named read rfl
  | files playground sheet =>
      obtain ⟨text, read, made⟩ := bind_eq_ok made
      obtain ⟨id, -, made⟩ := bind_eq_ok made
      obtain ⟨files, -, made⟩ := bind_eq_ok made
      cases made
      exact named read rfl

theorem eq_ok_of_join {ε α : Type} {x : Except ε (Option α)} {a : α}
    (h : x.toOption.join = some a) : x = .ok (some a) := by
  cases x with
  | error e => cases h
  | ok found => exact congrArg _ h

theorem playground?_of_asked (asked : r.asked? = some request) :
    r.playground? = some request.playground := by
  obtain ⟨route, routed, asked⟩ := Option.bind_eq_some_iff.mp asked
  rw [playground?, routed, Option.bind_some]
  split at asked
  · exact sheetRequest?_playground (eq_ok_of_join asked)
  · cases asked

theorem status_forMethod (r : HttpRequest) (response : HttpResponse) :
    (r.forMethod response).status = response.status := by
  rw [forMethod]
  split <;> rfl

/-- A request on sheets that the path and the method make is asked and answered. -/
theorem handle_of_asked {route : Route} (made : r.sheetRequest? route = .ok (some request))
    {σ : Type} [SheetStore σ] (fresh : SheetId) (store : σ) :
    r.handle fresh route store =
      (ofAnswer (request.answer fresh store).1, (request.answer fresh store).2) := by
  simp only [handle, made]

theorem handle_of_unasked {route : Route} (unasked : (r.sheetRequest? route).toOption.join = none) :
    ∃ response, ∀ {σ : Type} [SheetStore σ] (fresh : SheetId) (store : σ),
      r.handle fresh route store = (response, store) := by
  cases made : r.sheetRequest? route with
  | error rejection => exact ⟨_, fun _ _ => by simp only [handle, made]; rfl⟩
  | ok found =>
      cases found with
      | none => exact ⟨_, fun _ _ => by simp only [handle, made]; rfl⟩
      | some request =>
          rw [made] at unasked
          cases unasked

/-- What asks nothing of the store has one response, whatever is stored. -/
theorem respond_of_unasked (unasked : r.asked? = none) :
    ∃ response, ∀ {σ : Type} [SheetStore σ] (fresh : SheetId) (store : σ),
      r.respond fresh store = (response, store) := by
  rw [asked?, route?] at unasked
  cases path : Target.path? r.target with
  | none => exact ⟨none, fun _ _ => by simp only [respond, path]⟩
  | some text =>
      rw [path, Option.bind_some] at unasked
      have routed_alone {response : HttpResponse}
          (alone : ∀ {σ : Type} [SheetStore σ] (fresh : SheetId) (store : σ),
            r.route fresh text store = (response, store)) :
          ∃ response, ∀ {σ : Type} [SheetStore σ] (fresh : SheetId) (store : σ),
            r.respond fresh store = (response, store) :=
        ⟨some (response.withHeaders r.originHeaders), fun _ _ => by
          simp only [respond, path, alone]⟩
      cases routed : Route.ofPath? text with
      | none => exact routed_alone fun _ _ => by simp only [route, routed]; rfl
      | some found =>
          rw [routed, Option.bind_some] at unasked
          by_cases options : r.method = "OPTIONS"
          · exact routed_alone fun _ _ => by simp only [route, routed, if_pos options]; rfl
          · by_cases taken : found.methods.contains r.method
            · rw [if_pos ⟨options, taken⟩] at unasked
              obtain ⟨response, handled⟩ := handle_of_unasked unasked
              exact routed_alone fun _ _ => by
                simp only [route, routed, if_neg options, if_pos taken, handled]; rfl
            · exact routed_alone fun _ _ => by
                simp only [route, routed, if_neg options, if_neg taken]; rfl

/-- What asks something of the store is answered by it, with the status of the answer. -/
theorem respond_of_asked (asked : r.asked? = some request) :
    ∃ finish : HttpResponse → HttpResponse,
      (∀ response, (finish response).status = response.status) ∧
        ∀ {σ : Type} [SheetStore σ] (fresh : SheetId) (store : σ),
          r.respond fresh store =
            (some (finish (ofAnswer (request.answer fresh store).1)),
              (request.answer fresh store).2) := by
  rw [asked?, route?] at asked
  obtain ⟨found, routed, asked⟩ := Option.bind_eq_some_iff.mp asked
  obtain ⟨text, path, routed⟩ := Option.bind_eq_some_iff.mp routed
  split at asked
  · next accepted =>
      have made : r.sheetRequest? found = .ok (some request) := eq_ok_of_join asked
      refine ⟨fun response => (r.forMethod response).withHeaders r.originHeaders,
        status_forMethod r, fun fresh store => ?_⟩
      simp only [respond, path, route, routed, if_neg accepted.1, if_pos accepted.2,
        handle_of_asked made]
  · cases asked

theorem status_ofAnswer_error (e : ApiError) : (ofAnswer (.error e)).status ≠ 200 := by
  cases e <;> simp [ofAnswer, HttpResponse.json, ApiError.status]

end HttpRequest

end AgentWorkbench
