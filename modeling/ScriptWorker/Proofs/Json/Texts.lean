import ScriptWorker.Proofs.Json.Strings

/-!
# Texts of values

Writing a value appends its text to what is there (`Value.write_eq`). So the text of a container is
made of brackets, commas and the texts of what it holds (`Value.toList_render_array`,
`Value.toList_render_object`).
-/

set_option autoImplicit false

namespace ScriptWorker.Json

/-! ## Writing is appending -/

mutual

/-- A value is written behind what is there already. -/
theorem Value.write_eq (out : String) : (v : Value) → v.write out = out ++ v.render
  | .null => by simp [Value.write, Value.render]
  | .bool true => by simp [Value.write, Value.render]
  | .bool false => by simp [Value.write, Value.render]
  | .int n => by simp [Value.write, Value.render]
  | .float x => by simp [Value.write, Value.render]
  | .string s => by simp [Value.write, Value.render]
  | .array [] => by simp [Value.write, Value.render]
  | .array (item :: items) => by
    simp only [Value.write, Value.render]
    rw [writeItems_eq, Value.write_eq, writeItems_eq (item.write _), Value.write_eq ("" ++ "[")]
    simp [String.append_assoc]
  | .object [] => by simp [Value.write, Value.render]
  | .object ((key, value) :: members) => by
    simp only [Value.write, Value.render]
    rw [writeMembers_eq, Value.write_eq, writeMembers_eq (value.write _),
      Value.write_eq ("" ++ _ ++ _ ++ _)]
    simp [String.append_assoc]

theorem writeItems_eq (out : String) : (items : List Value) →
    writeItems out items = out ++ writeItems "" items
  | [] => by simp [writeItems]
  | item :: items => by
    simp only [writeItems]
    rw [writeItems_eq, Value.write_eq, writeItems_eq (item.write _), Value.write_eq ("" ++ ",")]
    simp [String.append_assoc]

theorem writeMembers_eq (out : String) : (members : List (String × Value)) →
    writeMembers out members = out ++ writeMembers "" members
  | [] => by simp [writeMembers]
  | (key, value) :: members => by
    simp only [writeMembers]
    rw [writeMembers_eq, Value.write_eq, writeMembers_eq (value.write _),
      Value.write_eq ("" ++ _ ++ _ ++ _)]
    simp [String.append_assoc]

end

/-! ## Containers -/

/-- The text of the items after the first one. -/
def itemsText (items : List Value) : List Char := (writeItems "" items).toList

/-- The text of the members after the first one. -/
def membersText (members : List (String × Value)) : List Char := (writeMembers "" members).toList

/-- The text of a member. -/
def memberText (key : String) (v : Value) : List Char :=
  (stringText key).toList ++ ':' :: v.render.toList

@[simp] theorem itemsText_nil : itemsText [] = [] := rfl

@[simp] theorem itemsText_cons (v : Value) (items : List Value) :
    itemsText (v :: items) = ',' :: (v.render.toList ++ itemsText items) := by
  unfold itemsText
  rw [writeItems, writeItems_eq, Value.write_eq]
  simp

@[simp] theorem membersText_nil : membersText [] = [] := rfl

@[simp] theorem membersText_cons (key : String) (v : Value) (members : List (String × Value)) :
    membersText ((key, v) :: members) = ',' :: (memberText key v ++ membersText members) := by
  unfold membersText memberText
  rw [writeMembers, writeMembers_eq, Value.write_eq]
  simp

theorem Value.toList_render_array (v : Value) (items : List Value) :
    (array (v :: items)).render.toList = '[' :: (v.render.toList ++ (itemsText items ++ [']'])) := by
  unfold itemsText
  rw [render, write, writeItems_eq, write_eq]
  simp

theorem Value.toList_render_object (key : String) (v : Value) (members : List (String × Value)) :
    (object ((key, v) :: members)).render.toList =
      '\x7b' :: (memberText key v ++ (membersText members ++ ['\x7d'])) := by
  unfold membersText memberText
  rw [render, write, writeMembers_eq, write_eq]
  simp

end ScriptWorker.Json
