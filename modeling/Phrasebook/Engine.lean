import Phrasebook.Config
import Phrasebook.Desc.Pass
import Phrasebook.Message.Localizer
import Phrasebook.Pass.Pipeline
import Phrasebook.Render
import Phrasebook.Template

/-!
# Engines

An engine compiles and renders templates under one configuration.

* `Engine.make` : the engine of a configuration and a translator;
* `Engine.compile` : a template with all passes run over it;
* `Engine.renderSource` : a template compiled and rendered in one step.
-/

namespace Phrasebook

/-- The passes that a localizer brings along: default messages are put in only where they are asked
for. -/
def Localizer.passes {m : Type → Type} [Monad m] [MonadExceptOf Error m] (l : Localizer) :
    List (Pass m) :=
  if l.debug then [DefaultPass.toPass ⟨true⟩] else []

/-- A configuration with what it is made of at work: a localizer and passes. -/
structure Engine where
  config : Config
  localizer : Localizer
  pipeline : Pipeline (Except Error)

namespace Engine

/-- The engine of a configuration and a translator. -/
def make (config : Config) (translator : Translator) : Engine :=
  let localizer : Localizer := ⟨translator, config.debug, config.defaultDomain⟩
  ⟨config, localizer, .ofList localizer.passes⟩

def addPass (g : Engine) (p : Pass (Except Error)) : Engine :=
  { g with pipeline := g.pipeline.add p }

/-- The template of a source, without running any pass. -/
def parse (_ : Engine) (source name : String) : Except Error Template := Template.parse source name

/-- The template of a source, with all passes run over it. -/
def compile (g : Engine) (source name : String) : Except Error Template := do
  let t ← g.parse source name
  g.pipeline.runTemplate t

/-- The templates of named sources, each with its own outcome, in the order of the sources. -/
def compileAll (g : Engine) (sources : List (String × String)) : List (Except Error Template) :=
  sources.map fun s => g.compile s.2 s.1

def scope (g : Engine) (context : Context) : Scope := ⟨g.localizer, g.config.locale, context⟩

def render (g : Engine) (t : Template) (context : Context) : Except Error String :=
  t.render (g.scope context)

/-- The text of a source, compiled and rendered in one step. -/
def renderSource (g : Engine) (source name : String) (context : Context) : Except Error String := do
  let t ← g.compile source name
  g.render t context

end Engine

def version : String := "0.1.0"

end Phrasebook
