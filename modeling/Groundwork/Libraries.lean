import Groundwork.Failure
import Groundwork.Jinja.Render
import Groundwork.Yaml.Writer

set_option autoImplicit false

/- What a run leaves to libraries: the rendering of templates, and the two formats that its record is
turned into. What is said of runs holds with any libraries, unless it names what it asks of them. -/
namespace Groundwork

structure Libraries where
  /-- The text that a template's text gives over fields. -/
  render : Fields → String → Except Refusal String
  /-- The text of a YAML document. -/
  writeYaml : Yaml.Datum → Except Refusal String
  /-- Whether fields can be turned into a JSON object, which then holds the same data. -/
  checkJson : Fields → Except Refusal Unit

namespace Libraries

/-- Whatever the engine makes of this text is what the template language says. -/
def Renders (l : Libraries) (text : String) : Prop :=
  ∀ fields rendered, l.render fields text = .ok rendered → Jinja.render fields text = .ok rendered

/-- Serialisers fail only where a part of the data refuses to be written, which plain fields never
do. -/
def WritesFields (l : Libraries) : Prop :=
  ∀ fields : Fields, ∃ text, l.writeYaml (.mapping (Value.toEntries fields)) = .ok text

/-- The engine and the writers of this project. -/
def own : Libraries where
  render fields text := (Jinja.render fields text).mapError fun e => ⟨e.message⟩
  writeYaml document := .ok (Yaml.write document)
  checkJson _ := .ok ()

theorem writesFields_own : own.WritesFields := fun _ => ⟨_, rfl⟩

end Libraries

end Groundwork
