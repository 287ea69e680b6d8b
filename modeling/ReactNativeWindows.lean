import ReactNativeWindows.Mso.DispatchQueue.SuspendGuard
import ReactNativeWindows.Mso.DispatchQueue.TaskBatching
import ReactNativeWindows.Mso.DispatchQueue.Looper
import ReactNativeWindows.Mso.DispatchQueue.ThreadPool
import ReactNativeWindows.Mso.DispatchQueue.UIScheduler
import ReactNativeWindows.Mso.Future.FailedError
import ReactNativeWindows.Networking.OriginTainting
import ReactNativeWindows.Networking.PreflightRedirects
import ReactNativeWindows.Networking.PreflightValidation
import ReactNativeWindows.ReactNative.ReactPromise
import ReactNativeWindows.ReactNative.ReactPropertyBag
import ReactNativeWindows.ReactNative.Jsi.ArgumentPaths
import ReactNativeWindows.ReactNative.Jsi.JsiRoundTrip
import ReactNativeWindows.ReactNative.Jsi.RepeatedNames
import ReactNativeWindows.ReactNative.Animated.CompositionAnimations
import ReactNativeWindows.PlatformOverride.CrossProcessLock
import ReactNativeWindows.PlatformOverride.SettledCalls
import ReactNativeWindows.Networking.OneOutcome
import ReactNativeWindows.PlatformOverride.UpgradeOverrides
import ReactNativeWindows.ScriptStore.PreparedScript
import ReactNativeWindows.ReactNative.TimerTicks
import ReactNativeWindows.ReactHost.JSCallRuns
import ReactNativeWindows.Networking.WebSocketRuns
import ReactNativeWindows.ReactHost.ActionRuns
import ReactNativeWindows.ReactHost.InstanceRuns
import ReactNativeWindows.ReactHost.ClosingRuns
import ReactNativeWindows.ReactHost.ViewRuns
import ReactNativeWindows.Fabric.FabricUIManager
import ReactNativeWindows.Mso.DispatchQueue.LocalValues
import ReactNativeWindows.Mso.ActiveObject.Confinement
import ReactNativeWindows.Fabric.ScrollInteractionTrackerOwner
import ReactNativeWindows.Fabric.PointerCapture
import ReactNativeWindows.Fabric.PointerHover
import ReactNativeWindows.Networking.SimpleRequests
import ReactNativeWindows.Networking.ResponseFiltering
import ReactNativeWindows.ReactNative.JSValue.LogText
import ReactNativeWindows.ReactNative.Animated.UpdateNodes
import ReactNativeWindows.ReactNative.Animated.NodeRegistry
import ReactNativeWindows.ReactNative.Animated.TrackingAnimations
import ReactNativeWindows.ReactNative.PropertyNames
import ReactNativeWindows.ReactNative.Animated.CalculatedAnimations
import ReactNativeWindows.Codegen.FileChanges
import ReactNativeWindows.PlatformOverride.ManifestEdits
import ReactNativeWindows.Fabric.TabOrder
import ReactNativeWindows.Networking.TaskSequencer
import ReactNativeWindows.Mso.Future.MemoryLayout
import ReactNativeWindows.Networking.BaseFileReaderResource
import ReactNativeWindows.Fabric.HitTest
import ReactNativeWindows.PlatformOverride.DirectoryHash
import ReactNativeWindows.ReactNative.JSValue.RoundTrip
import ReactNativeWindows.Unbroken.Anchors
