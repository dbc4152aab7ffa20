/-
What the calls that the handlers share return (handlers/base_handler.h), and
how a request's JSON is read.
-/
import AudioToolApi.Handlers.Base
import AudioToolApi.Lib.Effects

namespace AudioToolApi

open Effects

/-! ## What is sent -/

/-- What `parse_json` returns. -/
def sentJson (env : Env) (r : HttpRequest) : Except Bytes Json :=
  if r.body.length > 0 ∧ (find (text "json") r.contentType).isSome then env.parse r.body else .ok .null

/-- `json[key]`, as a `string`. -/
def Json.stringAt (j : Json) (key : Bytes) : Except Bytes Bytes := (j.at key).bind Json.toString

/-- The handler, with what `parse_json` was given. -/
def Handling.Read (h h' : Handling) : Prop := h'.world = h.world ∧ h'.user = h.user ∧ h'.response = h.response

theorem parseJson_read {env : Env} {r : HttpRequest} {h : Handling} (hj : h.json = .null) :
    ∃ h', h.Read h' ∧
      match sentJson env r with
      | .ok j => parseJson env r h = .ok j h'
      | .error what => parseJson env r h = .error (.std what) h' := by
  rw [parseJson, sentJson]
  by_cases hc : r.body.length > 0 ∧ (find (text "json") r.contentType).isSome
  · rw [if_pos hc, if_pos hc]
    cases hp : env.parse r.body with
    | ok j => exact ⟨{ h with json := j }, ⟨rfl, rfl, rfl⟩, rfl⟩
    | error what => exact ⟨h, ⟨rfl, rfl, rfl⟩, rfl⟩
  · rw [if_neg hc, if_neg hc]
    refine ⟨h, ⟨rfl, rfl, rfl⟩, ?_⟩
    show EStateM.Result.ok h.json h = .ok .null h
    rw [hj]

theorem jsonString_eq (j : Json) (key : Bytes) : jsonString j key = orThrow (j.stringAt key) := by
  rw [jsonString, Json.stringAt]
  cases j.at key <;> rfl

/-! ## What a call returns -/

theorem inWorld_ok_iff {α : Type} {x : Act α} {a : α} {h h' : Handling} :
    inWorld x h = .ok a h' ↔ ∃ w, x h.world = .ok a w ∧ { h with world := w } = h' := by
  rw [inWorld]
  cases x h.world with
  | error e w => simp
  | ok b w =>
    constructor
    · intro hok
      cases hok
      exact ⟨w, rfl, rfl⟩
    · intro ⟨_, hb, hw⟩
      cases hb
      exact congrArg (EStateM.Result.ok a) hw

theorem orThrow_ok_iff {σ α : Type} {x : Except Bytes α} {a : α} {s t : σ} :
    (orThrow x : EStateM Exn σ α) s = .ok a t ↔ x = .ok a ∧ s = t := by
  cases x with
  | ok b => exact pure_ok_iff.trans (by simp)
  | error what => simp [orThrow]

theorem require_ok_iff {check : Bool} {what : Bytes} {h h' : Handling} :
    require check what h = .ok () h' ↔ check = true ∧ h = h' := by
  cases check <;> simp [require]

theorem member_ok_iff {α : Type} {p : Handling → α} {a : α} {h h' : Handling} :
    member p h = .ok a h' ↔ p h = a ∧ h = h' := by
  simp [member]

theorem jsonString_ok_iff {j : Json} {key s : Bytes} {h h' : Handling} :
    jsonString j key h = .ok s h' ↔ j.stringAt key = .ok s ∧ h = h' := by
  rw [jsonString_eq, orThrow_ok_iff]

theorem jsonInt_ok {j : Json} {key : Bytes} {i : Int} {h h' : Handling} (hi : jsonInt j key h = .ok i h') : h = h' := by
  obtain ⟨value, t, hat, hto⟩ := bind_ok_iff.mp hi
  obtain ⟨-, rfl⟩ := orThrow_ok_iff.mp hat
  exact (orThrow_ok_iff.mp hto).2

end AudioToolApi
