import FeatureFlow.Manifest

/-!
# Active features

An active feature is a manifest together with the data objects built for it so
far. Registering the feature again retires all of them; a reference to a
retired object still denotes it.
-/

namespace FeatureFlow

structure Feature where
  manifest : Manifest
  objects : Table DataObject
  /-- The data objects of the earlier registrations, in their order. -/
  retired : List (Table DataObject)

namespace Feature

def ofManifest (manifest : Manifest) : Feature :=
  { manifest, objects := ∅, retired := [] }

/-- How often the feature had been registered before. -/
def registration (f : Feature) : Nat :=
  f.retired.length

def renew (f : Feature) (manifest : Manifest) : Feature :=
  { manifest, objects := ∅, retired := f.retired ++ [f.objects] }

def reference (f : Feature) (key : String) : Reference :=
  { feature := f.manifest.feature, registration := f.registration, key }

def objectsAt (f : Feature) (registration : Nat) : Table DataObject :=
  if registration = f.registration then f.objects else (f.retired[registration]?).getD ∅

end Feature

end FeatureFlow
