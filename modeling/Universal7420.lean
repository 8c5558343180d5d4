import Universal7420.Lib.EventSystem
import Universal7420.Lib.Fallible
import Universal7420.Lib.Scanf
import Universal7420.Power.Inheritance
import Universal7420.Power.ExtendsChain
import Universal7420.Power.LeafInheritance
import Universal7420.Power.DelayedProfile
import Universal7420.Power.NullProfile
import Universal7420.Irqbalance.Balance
import Universal7420.Irqbalance.LessLoaded
import Universal7420.Irqbalance.Watchdog
import Universal7420.Irqbalance.OpenStreams
import Universal7420.Irqbalance.Utilization
import Universal7420.Irqbalance.ScanForIrqs
import Universal7420.Irqbalance.ConfigurationSpec
import Universal7420.Camera.Registration
import Universal7420.Camera.BlockedCallbacks
import Universal7420.Camera.WrapperWorker
import Universal7420.Power.NodeFrame
import Universal7420.Power.Touchscreen
import Universal7420.Power.Touchkeys
import Universal7420.Power.LoaderTotality
import Universal7420.Power.ProfileChoice
import Universal7420.Power.LoadOrder
import Universal7420.Camera.PayloadLedger
import Universal7420.Camera.ExitRequest
import Universal7420.Camera.WorkerLifetime
import Universal7420.Camera.StopPreview
import Universal7420.Camera.TwoCameras
import Universal7420.Power.ScriptSteps
import Universal7420.Power.ConcurrentProfiles
import Universal7420.Init.ZeroModel
import Universal7420.Livedisplay.DisplayModes
import Universal7420.Power.SettingFiles
import Universal7420.Camera.Parameters
import Universal7420.Irqbalance.IrqReads
import Universal7420.Irqbalance.SortLoop
import Universal7420.Livedisplay.ColorCalibration
import Universal7420.Lib.JavaString
import Universal7420.Lineagehw.PersistentStorage
import Universal7420.Power.Poll
import Universal7420.Power.GovernorLists
import Universal7420.Power.PartialProfile
import Universal7420.Lib.LinkedTrie
import Universal7420.Resetprop.PropArea
import Universal7420.Resetprop.PropAreaSpec
import Universal7420.Resetprop.PropAreaMap
import Universal7420.Resetprop.Seqlock
import Universal7420.Resetprop.SystemProperties
import Universal7420.Resetprop.SystemPropertiesSpec
import Universal7420.Resetprop.ContextsSplit
import Universal7420.Resetprop.PropertyInfoAreaSpec
import Universal7420.Bluetooth.VendorInterface
import Universal7420.Bluetooth.VendorInterfaceSpec
import Universal7420.Feature.SecNativeFeature
import Universal7420.Feature.SecNativeFeatureSpec
