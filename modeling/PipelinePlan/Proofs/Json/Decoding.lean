import PipelinePlan.Json.Table
import PipelinePlan.Proofs.Table

namespace PipelinePlan

variable {α β : Type}

/-- One step of a decoder: what it reads first, and what it makes of it. -/
theorem reads {x : Option α} {f : α → Option β} {b : β} (a : α) (hx : x = some a)
    (hf : f a = some b) : x >>= f = some b := by
  rw [hx]
  exact hf

theorem mapM_map_eq_some {f : α → β} {g : β → Option α} (h : ∀ a, g (f a) = some a)
    (as : List α) : (as.map f).mapM g = some as := by
  induction as with
  | nil => rfl
  | cons a as ih =>
    rw [List.map_cons, List.mapM_cons, h, ih]
    rfl

namespace Json

theorem asList?_map {encode : α → Json} {decode : Json → Option α}
    (h : ∀ a, decode (encode a) = some a) (as : List α) :
    asList? decode (.list (as.map encode)) = some as :=
  mapM_map_eq_some h as

@[simp] theorem asText?_text (value : String) : asText? (.text value) = some value := rfl

theorem asList?_texts (values : List String) : asList? asText? (texts values) = some values :=
  asList?_map asText?_text values

namespace Fields

variable {members : List (String × Json)} {position : Nat} {name : String}

/-- An optional field that was written as null when absent is read back. -/
theorem optional_of_orNull {encode : α → Json} {decode : Json → Option α} {value : Option α}
    (hdecode : ∀ a, asOption? decode (encode a) = some (some a))
    (h : member? name members = some (orNull (value.map encode))) :
    (named members).optional position name decode = some value := by
  cases value with
  | none => simp [optional, withDefault, find?, h, orNull, asOption?]
  | some a => simp [optional, withDefault, find?, h, orNull, hdecode]

theorem optional_text {value : Option String}
    (h : member? name members = some (orNull (value.map .text))) :
    (named members).optional position name asText? = some value :=
  optional_of_orNull (fun _ => rfl) h

theorem optional_bool {value : Option Bool}
    (h : member? name members = some (orNull (value.map .bool))) :
    (named members).optional position name asBool? = some value :=
  optional_of_orNull (fun _ => rfl) h

end Fields

end Json

/-- A table comes back from its record, whose members stand in the order of the keys. -/
theorem Table.ofJson?_toJson {encode : α → Json} {decode : Json → Option α}
    (h : ∀ a, decode (encode a) = some a) (t : Table α) :
    ofJson? decode (t.toJson encode) = some t := by
  have hentries : (t.entries.map fun entry => (entry.1, encode entry.2)).mapM
      (fun member => (decode member.2).map (member.1, ·)) = some t.entries :=
    mapM_map_eq_some (fun entry => by rw [h, Option.map_some]) t.entries
  rw [toJson, ofJson?, hentries, Option.map_some, ofList_entries]

end PipelinePlan
