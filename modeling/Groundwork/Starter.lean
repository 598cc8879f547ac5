import Groundwork.Catalog

set_option autoImplicit false

/- The template root that new projects start from: templates and default fields of the resource
types that are supported out of the box, and the sources of the extra assets. -/
namespace Groundwork.Starter

/-- A text of these lines, each of them ended. -/
def textOf (lines : List String) : String := String.join (lines.map (· ++ "\n"))

namespace Templates

def configEnvironment : String := textOf [
  "terraform \x7b",
  "\x7b%- if env.backend and env.backend.type == \"s3\" %\x7d",
  "  backend \"s3\" \x7b",
  "    bucket = \"\x7b\x7b env.backend.bucket \x7d\x7d\"",
  "    key    = \"\x7b\x7b env.backend.key | default(env.name ~ \"/terraform.tfstate\") \x7d\x7d\"",
  "    region = \"\x7b\x7b env.backend.region \x7d\x7d\"",
  "  \x7d",
  "\x7b%- else %\x7d",
  "  backend \"local\" \x7b\x7d",
  "\x7b%- endif %\x7d",
  "\x7d",
  "\x7b% for provider in providers %\x7d\x7b% for name, params in provider|items %\x7d",
  "provider \"\x7b\x7b name \x7d\x7d\" \x7b",
  "\x7b%- for key, value in params|items %\x7d",
  "  \x7b\x7b key \x7d\x7d = \x7b\x7b value|tojson \x7d\x7d",
  "\x7b%- endfor %\x7d",
  "\x7d",
  "\x7b% endfor %\x7d\x7b% endfor %\x7d",
  "\x7b%- for name, module in modules|items %\x7d",
  "module \"\x7b\x7b name \x7d\x7d\" \x7b",
  "  source = \"../modules/\x7b\x7b name \x7d\x7d\"",
  "\x7b%- for var in module.variables_names %\x7d\x7b% if var in env.variables_names %\x7d",
  "  \x7b\x7b var \x7d\x7d = var.\x7b\x7b var \x7d\x7d",
  "\x7b%- endif %\x7d\x7b% endfor %\x7d",
  "\x7d",
  "\x7b% endfor %\x7d"]

def configVariable : String := textOf [
  "variable <name> \x7b",
  "  type = <type>",
  "\x7b%- if description %\x7d",
  "  description = <description>",
  "\x7b%- endif %\x7d",
  "\x7b%- if default_value is defined and default_value is not none %\x7d",
  "  default = <default_value>",
  "\x7b%- endif %\x7d",
  "\x7d"]

def awsDbInstance : String := textOf [
  "\x7b%- set supported_engines = [\"postgres\", \"mysql\", \"mariadb\"] %\x7d",
  "\x7b%- set log_types = \x7b\"postgres\": [\"postgresql\", \"upgrade\"], \"mysql\": [\"audit\", \"error\", \"general\", \"slowquery\"], \"mariadb\": [\"audit\", \"error\", \"general\", \"slowquery\"]\x7d %\x7d",
  "\x7b%- if engine not in supported_engines %\x7d\x7b\x7b raise_error(\"aws_db_instance engine must be one of postgres, mysql, mariadb\") \x7d\x7d\x7b% endif -%\x7d",
  "resource \"aws_db_instance\" <resource_name> \x7b",
  "  identifier          = <identifier>",
  "  engine              = <engine>",
  "  engine_version      = <engine_version>",
  "  instance_class      = <instance_class>",
  "  allocated_storage   = <allocated_storage>",
  "  username            = <username>",
  "  password            = <password>",
  "  skip_final_snapshot = <skip_final_snapshot>",
  "\x7b%- if log_exports %\x7d",
  "\x7b%- set exports = intersection(log_exports, log_types[engine]) %\x7d",
  "\x7b%- if exports %\x7d",
  "  enabled_cloudwatch_logs_exports = \x7b\x7b exports|tojson \x7d\x7d",
  "\x7b%- endif %\x7d",
  "\x7b%- endif %\x7d",
  "\x7d"]

def awsGlueCatalogDatabase : String := textOf [
  "resource \"aws_glue_catalog_database\" <resource_name> \x7b",
  "  name        = <database_name>",
  "  description = <description>",
  "\x7d"]

def awsGlueCrawler : String := textOf [
  "\x7b%- if not s3_target_path %\x7d\x7b\x7b raise_error(\"aws_glue_crawler requires s3_target_path\") \x7d\x7d\x7b% endif -%\x7d",
  "resource \"aws_glue_crawler\" <resource_name> \x7b",
  "  name          = <crawler_name>",
  "  database_name = <database_name>",
  "  role          = <role_arn>",
  "\x7b%- if schedule %\x7d",
  "  schedule      = <schedule>",
  "\x7b%- endif %\x7d",
  "",
  "  s3_target \x7b",
  "    path = <s3_target_path>",
  "  \x7d",
  "\x7d"]

def awsS3Bucket : String := textOf [
  "\x7b%- if not bucket_name %\x7d\x7b\x7b raise_error(\"aws_s3_bucket requires bucket_name\") \x7d\x7d\x7b% endif -%\x7d",
  "resource \"aws_s3_bucket\" <resource_name> \x7b",
  "  bucket              = <bucket_name>",
  "  force_destroy       = <force_destroy>",
  "  object_lock_enabled = <object_lock_enabled>",
  "\x7d",
  "\x7b%- if [versioning, object_lock_enabled]|any %\x7d",
  "",
  "resource \"aws_s3_bucket_versioning\" <resource_name> \x7b",
  "  bucket = aws_s3_bucket.\x7b\x7b resource_name \x7d\x7d.id",
  "",
  "  versioning_configuration \x7b",
  "    status = \"Enabled\"",
  "  \x7d",
  "\x7d",
  "\x7b%- endif %\x7d"]

def awsS3Directory : String := textOf [
  "resource \"aws_s3_object\" <resource_name> \x7b",
  "  bucket  = <bucket>",
  "  key     = <key>",
  "  content = \"\"",
  "\x7d"]

/-- Every text by the name it is looked up with. -/
def all : Dict String :=
  [("_config_environment", configEnvironment),
    ("_config_variable", configVariable),
    ("aws_db_instance", awsDbInstance),
    ("aws_glue_catalog_database", awsGlueCatalogDatabase),
    ("aws_glue_crawler", awsGlueCrawler),
    ("aws_s3_bucket", awsS3Bucket),
    ("aws_s3_directory", awsS3Directory)]

end Templates

namespace Defaults

def configEnvironment : String := textOf [
  "backend:",
  "  type: local",
  "variables: \x7b\x7d"]

def configInfra : String := textOf [
  "providers: []",
  "resources: []",
  "modules: \x7b\x7d",
  "environments: \x7b\x7d",
  "extra_assets: \x7b\x7d"]

def configVariable : String := textOf [
  "name: null",
  "default_value: null",
  "description: \"\""]

def awsDbInstance : String := textOf [
  "_module: main",
  "_jinja: true",
  "resource_name: null",
  "identifier: dataride-db",
  "engine: postgres",
  "engine_version: \"15\"",
  "instance_class: db.t3.micro",
  "allocated_storage: 20",
  "username: dataride_admin",
  "password:",
  "  is_variable: true",
  "  type: string",
  "  name: db_password",
  "  description: Master password of the database instance",
  "skip_final_snapshot: true",
  "log_exports: []"]

def awsGlueCatalogDatabase : String := textOf [
  "_module: main",
  "_jinja: false",
  "resource_name: null",
  "database_name: dataride_catalog",
  "description: Data catalog managed by dataride"]

def awsGlueCrawler : String := textOf [
  "_module: main",
  "_jinja: true",
  "resource_name: null",
  "crawler_name: dataride_crawler",
  "database_name: dataride_catalog",
  "role_arn:",
  "  is_variable: true",
  "  type: string",
  "  name: glue_crawler_role_arn",
  "  description: IAM role assumed by Glue crawlers",
  "schedule: null",
  "s3_target_path: null"]

def awsS3Bucket : String := textOf [
  "_module: main",
  "_jinja: true",
  "resource_name: null",
  "bucket_name: null",
  "force_destroy: false",
  "object_lock_enabled: false",
  "versioning: false"]

def awsS3Directory : String := textOf [
  "_module: main",
  "_jinja: false",
  "resource_name: null",
  "bucket: null",
  "key: null"]

/-- Every text by the name it is looked up with. -/
def all : Dict String :=
  [("_config_environment", configEnvironment),
    ("_config_infra", configInfra),
    ("_config_variable", configVariable),
    ("aws_db_instance", awsDbInstance),
    ("aws_glue_catalog_database", awsGlueCatalogDatabase),
    ("aws_glue_crawler", awsGlueCrawler),
    ("aws_s3_bucket", awsS3Bucket),
    ("aws_s3_directory", awsS3Directory)]

end Defaults

namespace Assets

def actionRequired : String := textOf [
  "# Action required",
  "",
  "This infrastructure setup was generated by dataride on \x7b\x7b generated_at \x7d\x7d.",
  "Complete the steps below before deploying it.",
  "",
  "## Providers",
  "\x7b% for provider in providers %\x7d\x7b% for name, params in provider|items %\x7d",
  "- `\x7b\x7b name \x7d\x7d`\x7b% if params.region %\x7d (region `\x7b\x7b params.region \x7d\x7d`)\x7b% endif %\x7d: configure credentials for this provider.",
  "\x7b%- endfor %\x7d\x7b% else %\x7d",
  "No providers were declared. Add at least one to the `providers` section.",
  "\x7b%- endfor %\x7d",
  "",
  "## Module variables without default values",
  "\x7b% for name, module in modules|items %\x7d\x7b% if module.vars_no_def %\x7d",
  "- module `\x7b\x7b name \x7d\x7d`: \x7b% for var in module.vars_no_def %\x7d`\x7b\x7b var \x7d\x7d`\x7b% if not loop.last %\x7d, \x7b% endif %\x7d\x7b% endfor %\x7d",
  "\x7b%- endif %\x7d\x7b% endfor %\x7d",
  "",
  "Provide these values through the environment's `variables` section or a `.tfvars` file.",
  "",
  "## Environments",
  "\x7b% for name, environment in environments|items %\x7d",
  "- `\x7b\x7b name \x7d\x7d`: run `terraform init` and `terraform plan` inside `\x7b\x7b name \x7d\x7d/`.",
  "\x7b%- else %\x7d",
  "No environments were declared. Modules can only be used from your own root configuration.",
  "\x7b%- endfor %\x7d",
  "",
  "## Generated resource types",
  "\x7b% for resource_type in resource_types %\x7d",
  "- `\x7b\x7b resource_type \x7d\x7d`",
  "\x7b%- endfor %\x7d",
  "\x7b% if \"airflow_local\" in extra_asset_names %\x7d",
  "## Apache Airflow local environment",
  "",
  "Start it with `docker compose up` inside `airflow_local/`. DAGs placed in",
  "`airflow_local/dags/` are picked up automatically.",
  "\x7b% endif %\x7d",
  "\x7b%- if \"mageai_local\" in extra_asset_names %\x7d",
  "## Mage AI local environment",
  "",
  "Start it with `docker compose up` inside `mageai_local/` and open http://localhost:6789.",
  "\x7b% endif %\x7d"]

def airflowReadme : String := textOf [
  "# Airflow local environment",
  "",
  "Run `docker compose up` and open http://localhost:8080. The admin password is",
  "printed in the container logs on first start."]

def airflowExample : String := textOf [
  "from datetime import datetime",
  "",
  "from airflow import DAG",
  "from airflow.operators.empty import EmptyOperator",
  "",
  "with DAG(\"dataride_example\", start_date=datetime(2024, 1, 1), schedule=None, catchup=False):",
  "    EmptyOperator(task_id=\"start\")"]

def airflowCompose : String := textOf [
  "services:",
  "  airflow:",
  "    image: apache/airflow:2.8.1",
  "    command: standalone",
  "    environment:",
  "      AIRFLOW__CORE__LOAD_EXAMPLES: \"false\"",
  "      AIRFLOW__CORE__DAGS_FOLDER: /opt/airflow/dags",
  "    ports:",
  "      - \"8080:8080\"",
  "    volumes:",
  "      - ./dags:/opt/airflow/dags"]

def mageaiCompose : String := textOf [
  "services:",
  "  mageai:",
  "    image: mageai/mageai:latest",
  "    command: mage start dataride",
  "    ports:",
  "      - \"6789:6789\"",
  "    volumes:",
  "      - ./project:/home/src"]

/-- Every text by its path below the directory of assets. -/
def all : Dict String :=
  [("action_required/action_required.md", actionRequired),
    ("airflow_local/README.md", airflowReadme),
    ("airflow_local/dags/example_dag.py", airflowExample),
    ("airflow_local/docker-compose.yaml", airflowCompose),
    ("mageai_local/docker-compose.yaml", mageaiCompose)]

end Assets

/-- Every file by its path below the template root. -/
def files : Dict String :=
  (Templates.all.map fun e => (Path.join Catalog.templatesDirectory (e.1 ++ ".tf"), e.2)) ++
    (Defaults.all.map fun e => (Path.join Catalog.defaultsDirectory (e.1 ++ ".yaml"), e.2)) ++
    (Assets.all.map fun e => (Path.join Catalog.assetsDirectory e.1, e.2))

end Groundwork.Starter
