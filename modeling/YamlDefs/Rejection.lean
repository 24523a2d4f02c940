import YamlDefs.Text.Digits

/-!
# Rejections

Why a source is rejected, with the message for each cause.

* `Rejection`: the causes.
* `Rejection.message`: the text by which a cause is reported.
-/

namespace YamlDefs

/-- Why a source or a node is rejected. -/
inductive Rejection where
  /-- A name does not satisfy the grammar of names. -/
  | invalidName (name : String)
  /-- A value is none that a declaration can hold; it is given by its display. -/
  | invalidValue (text : String)
  /-- A node stands deeper than the limit allows. -/
  | tooDeep (depth : Nat)
  /-- The root is not a mapping. -/
  | rootNotMapping
  /-- The source is not well-formed; the cause is in the words of the reader. -/
  | malformed (cause : String)
deriving DecidableEq, Repr

/-- The text by which a cause is reported. -/
def Rejection.message : Rejection → String
  | invalidName name => "Недопустимое имя: " ++ name
  | invalidValue text => "Недопустимое значение: " ++ text
  | tooDeep depth =>
    "Недопустимое значение: превышена глубина вложенности " ++ String.ofList (Text.decimal depth)
  | rootNotMapping => "Корневой элемент должен быть словарём."
  | malformed cause => "Ошибка разбора YAML: " ++ cause

end YamlDefs
