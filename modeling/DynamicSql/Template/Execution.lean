import DynamicSql.Sql.Dialect
import DynamicSql.Template.Render
import DynamicSql.Template.Substitution

/-!
# Executions

A template is rendered for a parameter, and substitution makes its text final.
An execution needs the statement, the bindings, the values, and perhaps a page
or a count of the statement. All of them come from one rendering.
-/

namespace DynamicSql

namespace Template

/-- The statement of a template for a parameter. -/
def render (template : Template) (converters : Converters) (param : Value) :
    Except Error Fragment := do
  let occasion : Occasion := { cls := template.cls, converters, param }
  let (fragment, _) ← (Part.renderAll occasion none template.parts).run {}
  let sql ← substitute param template.cls fragment.sql
  return { fragment with sql }

end Template

namespace Binding

/-- The value that is bound for a parameter of a statement: null if the property
    leads nowhere or its text is the one that stands for null. -/
def value (binding : Binding) (param : Value) : Except Error Value := do
  let value := (← param.namedBy binding.property).getD .null
  return if binding.nullValue = some value.text then .null else value

end Binding

namespace Fragment

/-- The values that are bound for the markers of a statement, in their order. -/
def values (fragment : Fragment) (param : Value) : Except Error (List Value) :=
  fragment.bindings.mapM (·.value param)

end Fragment

/-- One rendering of a template for a parameter. -/
structure Execution where
  param : Value
  rendered : Except Error Fragment

namespace Execution

/-- The execution of a template for a parameter. -/
def start (template : Template) (converters : Converters) (param : Value) : Execution :=
  { param, rendered := template.render converters param }

/-- The statement. -/
def sql (execution : Execution) : Except Error String := do
  return (← execution.rendered).sql

/-- The bindings of the markers. -/
def bindings (execution : Execution) : Except Error (List Binding) := do
  return (← execution.rendered).bindings

/-- The values of the markers. -/
def values (execution : Execution) : Except Error (List Value) := do
  (← execution.rendered).values execution.param

/-- A page of the statement. -/
def page (execution : Execution) (dialect : Sql.Dialect) (skip max : Nat) :
    Except Error (Option String) := do
  dialect.pageOfText (← execution.sql) skip max

/-- A count of the rows of the statement. -/
def count (execution : Execution) (dialect : Sql.Dialect) :
    Except Error (Option String) := do
  dialect.countOfText (← execution.sql)

end Execution

end DynamicSql
