import Huginn.Core.F64
import Huginn.Core.Text
import Huginn.Core.Types

/-!
# A row of the dashboard

The cells of a row, which the page builds as HTML and assigns to `innerHTML`. How JavaScript renders
a number with one decimal (`toFixed(1)`) is a parameter.
-/

namespace Huginn.Web

variable {F : Type} [F64 F]

/-- `escHtml`. -/
def escHtml (str : String) : String :=
  replace (replace (replace (replace str '&' "&amp;") '<' "&lt;") '>' "&gt;") '"' "&quot;"

/-- `err`: the empty text is falsy. -/
def rowErr (result : ProbeResult F) : String :=
  match result.error with
  | some err => if err = "" then "-" else err
  | none => "-"

/-- `ms`. JSON has `null` for a number that is not finite. -/
def rowMs (toFixed : F → String) (result : ProbeResult F) : String :=
  if F64.isFinite result.responseMs then toFixed result.responseMs ++ "ms" else "-"

/-- `statusCell`. -/
def statusCell (result : ProbeResult F) : String :=
  if result.up then "<td class=\"up\">✅ UP</td>" else "<td class=\"down\">❌ DOWN</td>"

/-- `cells`. -/
def rowCells (toFixed : F → String) (result : ProbeResult F) : String :=
  "<td>" ++ escHtml result.probeName ++ "</td>" ++
  "<td>" ++ escHtml result.probeType ++ "</td>" ++
  "<td>" ++ escHtml result.target ++ "</td>" ++
  statusCell result ++
  "<td>" ++ escHtml (rowMs toFixed result) ++ "</td>" ++
  "<td>" ++ escHtml (rowErr result) ++ "</td>"

end Huginn.Web
