import KhelaKaro.Async.Pool
import KhelaKaro.Async.Along
import KhelaKaro.Async.Serial
import KhelaKaro.Async.Readers
import KhelaKaro.Async.Rounds
import KhelaKaro.Ledger
import KhelaKaro.Api
import KhelaKaro.Theorems.BookingRoute
import KhelaKaro.Theorems.Allocation
import KhelaKaro.Calendar
import KhelaKaro.DateText
import KhelaKaro.App
import KhelaKaro.BookingScreen
import KhelaKaro.Query
import KhelaKaro.Theorems.DateRoundTrip
import KhelaKaro.Theorems.SerialBookings
import KhelaKaro.Theorems.Answers
import KhelaKaro.Theorems.BookingProgress
import KhelaKaro.Theorems.BookingRace
import KhelaKaro.Theorems.Profile
import KhelaKaro.Theorems.LoginGate
import KhelaKaro.Theorems.ProfileAgreement
import KhelaKaro.Theorems.RegistrationRace
import KhelaKaro.Registration
import KhelaKaro.Theorems.RegistrationStores
import KhelaKaro.Theorems.Courts
import KhelaKaro.Theorems.BookingOutcomes
import KhelaKaro.Theorems.CourtRange
import KhelaKaro.Theorems.ProfileOrder
import KhelaKaro.Theorems.SameStores
import KhelaKaro.Theorems.Independence
import KhelaKaro.IsoText
import KhelaKaro.Theorems.IsoRoundTrip
import KhelaKaro.Theorems.FormCleaning
import KhelaKaro.Theorems.BookingButton
import KhelaKaro.Theorems.Traffic
import KhelaKaro.Async.Trace
import KhelaKaro.Theorems.Service
import KhelaKaro.Wire
import KhelaKaro.ProfileScreen
import KhelaKaro.BookingSystem
import KhelaKaro.Theorems.Confirmations
import KhelaKaro.Theorems.ProfileReads
import KhelaKaro.Theorems.Greeting
import KhelaKaro.Theorems.OneAtATime
import KhelaKaro.Theorems.OpeningHours
import KhelaKaro.Theorems.ProfileTable
import KhelaKaro.Theorems.Accounts
