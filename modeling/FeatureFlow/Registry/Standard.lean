import FeatureFlow.Node.Scripted
import FeatureFlow.Registry

/-!
# Standard catalogues
-/

namespace FeatureFlow.Catalogue

def builtIn : Catalogue where
  nodes :=
    [(BuiltIn.delegateType, some fun seed => some (.component (BuiltIn.delegate seed))),
      (BuiltIn.relayType, some fun seed => some (.component (BuiltIn.relay seed))),
      (BuiltIn.valueObjectType, some fun seed => some (.dataObject (BuiltIn.valueObject seed)))]
  providers := [.components, .serverData]

/-- Scripted components, and a type that is declared but cannot be built. -/
def scripted : Catalogue where
  nodes :=
    [(Scripted.scriptType, some fun seed => some (.component (Scripted.script seed))),
      (Scripted.pickyType, some fun seed => (Scripted.picky seed).map .component),
      (Scripted.abstractType, none)]
  providers := []

/-- Claims to provide components and hands out value objects. -/
def lyingProvider : Provider :=
  { typeName := "LyingProvider", role := .component
    direct := some fun seed => some (.dataObject (BuiltIn.valueObject seed)) }

def trial : Catalogue :=
  builtIn ++ scripted ++ { nodes := [], providers := [lyingProvider] }

end FeatureFlow.Catalogue
